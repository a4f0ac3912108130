import NanoClr.Interrupts.HalQueue
import NanoClr.Library.TransitionSystem
import Mathlib.Logic.Function.Basic

/-!
# The way of an interrupt event

Interrupts save events to the queue of the hardware layer.  The runtime
transfers them to the application queue, removes the ones of a dispatcher that
is disposed of, and dispatches the ones on the application queue.  Interrupts
come between any two steps that lock them out.
-/

namespace NanoClr

namespace Interrupts

/-! ## Records -/

/-- What an event is saved with.  Events are numbered in the order they are
saved. -/
structure SavedEvent where
  number : Nat
  m_time : Int64
  m_context : Nat
  m_data1 : UInt32
  m_data2 : UInt32
deriving DecidableEq

/-- A record of the queue: an event, and a field that no interrupt writes. -/
structure HalInterruptRecord extends SavedEvent where
  m_data3 : UInt32

/-- `AssignFrom`, which leaves that field out. -/
def HalInterruptRecord.AssignFrom (record recFrom : HalInterruptRecord) :
    HalInterruptRecord :=
  { record with toSavedEvent := recFrom.toSavedEvent }

/-- A node of the application queue. -/
structure CLR_RT_ApplicationInterrupt extends SavedEvent where
  data3 : UInt32
deriving DecidableEq

/-! ## The application queue -/

/-- How one attempt to dispatch ends: there is no thread for it, or the
dispatch fails, or it starts. -/
inductive DispatchOutcome where
  | bailsOut
  | fails
  | starts

/-- The application queue with the event that the interrupt thread works on.
What was transferred and dispatched, and which dispatchers were released, is
recorded, and whether an unlinked node was used. -/
structure ApplicationQueue where
  m_applicationQueue : List CLR_RT_ApplicationInterrupt
  m_queuedInterrupts : UInt32
  dispatching : Option CLR_RT_ApplicationInterrupt
  transferred : List SavedEvent
  dispatched : List SavedEvent
  released : List Nat
  usedUnlinked : Bool

namespace ApplicationQueue

variable (queue : ApplicationQueue)

/-- `LinkAtBack` of a copied record, with the count. -/
def link (queueRec : CLR_RT_ApplicationInterrupt) : ApplicationQueue :=
  { queue with
    m_applicationQueue := queue.m_applicationQueue ++ [queueRec]
    m_queuedInterrupts := queue.m_queuedInterrupts + 1
    transferred := queue.transferred ++ [queueRec.toSavedEvent] }

/-- `SpawnDispatcher` with the outcomes of its own attempt and of those that
follow when a dispatch fails. -/
def SpawnDispatcher :
    List DispatchOutcome → ApplicationQueue → ApplicationQueue
  | [], queue => queue
  | outcome :: outcomes, queue =>
      match queue.dispatching, queue.m_applicationQueue with
      | none, interrupt :: rest =>
          let unlinked := { queue with
            m_applicationQueue := rest
            dispatched := queue.dispatched ++ [interrupt.toSavedEvent] }
          match outcome with
          | .bailsOut => queue
          | .starts => { unlinked with
              dispatching := some interrupt
              m_queuedInterrupts := unlinked.m_queuedInterrupts - 1 }
          | .fails =>
              let later := SpawnDispatcher outcomes unlinked
              { later with m_queuedInterrupts := later.m_queuedInterrupts - 1 }
      | _, _ => queue

/-- The rest of `SpawnDispatcher` after the first node was read and a thread
was found: the node is unlinked and dispatched. -/
def dispatchNode (interrupt : CLR_RT_ApplicationInterrupt)
    (outcomes : List DispatchOutcome) : ApplicationQueue :=
  if interrupt ∈ queue.m_applicationQueue then
    let unlinked := { queue with
      m_applicationQueue := queue.m_applicationQueue.erase interrupt
      dispatched := queue.dispatched ++ [interrupt.toSavedEvent] }
    match outcomes with
    | .fails :: outcomes =>
        let later := SpawnDispatcher outcomes unlinked
        { later with m_queuedInterrupts := later.m_queuedInterrupts - 1 }
    | _ => { unlinked with
        dispatching := some interrupt
        m_queuedInterrupts := unlinked.m_queuedInterrupts - 1 }
  else
    { queue with usedUnlinked := true }

/-- The loop of `ReleaseWhenDeadEx` over the nodes.  The node behind the current
one was read before a removal; it is used even when a dispatch that follows
the removal has unlinked it. -/
def releaseNodes (dispatcher : Nat) :
    List (List DispatchOutcome) → List CLR_RT_ApplicationInterrupt →
      List CLR_RT_ApplicationInterrupt → ApplicationQueue → ApplicationQueue
  | _, _, [], queue => queue
  | calls, passed, interrupt :: rest, queue =>
      if interrupt.m_context = dispatcher then
        let unlinked := { queue with
          m_applicationQueue := passed ++ rest
          m_queuedInterrupts := queue.m_queuedInterrupts - 1 }
        let later := SpawnDispatcher (calls.headD []) unlinked
        let taken := (passed ++ rest).length - later.m_applicationQueue.length
        if passed.length < taken then
          { later with usedUnlinked := true }
        else
          releaseNodes dispatcher calls.tail (passed.drop taken) rest later
      else
        releaseNodes dispatcher calls (passed ++ [interrupt]) rest queue

/-- `ReleaseWhenDeadEx` of a dispatcher that is ready for release, with the
outcomes of the dispatches that its removals lead to. -/
def ReleaseWhenDeadEx (dispatcher : Nat) (calls : List (List DispatchOutcome)) :
    ApplicationQueue :=
  releaseNodes dispatcher calls [] queue.m_applicationQueue
    { queue with released := queue.released ++ [dispatcher] }

/-- The interrupt thread ends and calls `ThreadTerminationCallback`. -/
def threadTerminates (outcomes : List DispatchOutcome) : ApplicationQueue :=
  SpawnDispatcher outcomes { queue with dispatching := none }

end ApplicationQueue

/-! ## The state -/

/-- How far the runtime is: between two operations, or between the steps of one
of them that lock interrupts out.  A record that was popped is named with the
event that it held. -/
inductive Phase where
  | idle
  | transfer
  | transferring (rec : Nat)
  | transferred (rec : Nat)
  | removing (dispatcher remaining : Nat)
  | popped (dispatcher remaining testRec : Nat) (event : SavedEvent)
  | pushing (dispatcher remaining testRec : Nat) (event : SavedEvent)
  | assigning (dispatcher remaining testRec newRec : Nat)
  | spawning (interrupt : CLR_RT_ApplicationInterrupt)

/-- Both queues.  The events that were saved, displaced and discarded and the
dispatchers that were disposed of are recorded, and whether a null record was
used. -/
structure CLR_HW_Hardware where
  m_HalQueue : Hal_Queue_UnknownSize
  m_data : Nat → HalInterruptRecord
  application : ApplicationQueue
  phase : Phase
  saved : List SavedEvent
  displaced : List SavedEvent
  discarded : List SavedEvent
  disposed : List Nat
  usedNull : Bool

namespace CLR_HW_Hardware

variable (hardware : CLR_HW_Hardware)

/-! ## Interrupts -/

/-- `SaveToHALQueue`. -/
def SaveToHALQueue (context : Nat) (data1 data2 : UInt32) (time : Int64) :
    CLR_HW_Hardware :=
  let event : SavedEvent := {
    number := hardware.saved.length
    m_time := time
    m_context := context
    m_data1 := data1
    m_data2 := data2 }
  let hardware := { hardware with saved := hardware.saved ++ [event] }
  let write (hardware : CLR_HW_Hardware) (rec : Nat) : CLR_HW_Hardware :=
    { hardware with
      m_data := Function.update hardware.m_data rec
        { hardware.m_data rec with toSavedEvent := event } }
  match hardware.m_HalQueue.Push with
  | (some rec, m_HalQueue) => write { hardware with m_HalQueue } rec
  | (none, m_HalQueue) =>
      let (oldest, m_HalQueue) := m_HalQueue.Pop
      let displaced := oldest.toList.map fun rec =>
        (hardware.m_data rec).toSavedEvent
      let (newest, m_HalQueue) := m_HalQueue.Push
      let hardware := { hardware with
        m_HalQueue
        displaced := hardware.displaced ++ displaced }
      match newest with
      | some rec => write hardware rec
      | none => hardware

/-! ## Transferring -/

/-- The event of a record. -/
def eventAt (rec : Nat) : SavedEvent :=
  (hardware.m_data rec).toSavedEvent

/-- The oldest record is read. -/
def peek : CLR_HW_Hardware :=
  match hardware.m_HalQueue.Peek with
  | none => { hardware with phase := .idle }
  | some rec => { hardware with phase := .transferring rec }

/-- The record is copied to a new node. -/
def copy (rec : Nat) : CLR_HW_Hardware :=
  { hardware with
    application := hardware.application.link {
      hardware.eventAt rec with
      data3 := (hardware.m_data rec).m_data3 }
    phase := .transferred rec }

/-- The oldest record is taken from the queue. -/
def popTransferred : CLR_HW_Hardware :=
  { hardware with
    m_HalQueue := hardware.m_HalQueue.Pop.2
    phase := .transfer }

/-- Take as many records as there are at most. -/
def popAll : Nat → Hal_Queue_UnknownSize → Hal_Queue_UnknownSize
  | 0, queue => queue
  | count + 1, queue =>
      if queue.IsEmpty then queue else popAll count queue.Pop.2

/-- There is no memory for a node: all records are discarded. -/
def outOfMemory : CLR_HW_Hardware :=
  { hardware with
    m_HalQueue := popAll hardware.m_HalQueue.m_size hardware.m_HalQueue
    discarded := hardware.discarded ++
      hardware.m_HalQueue.slots.map hardware.eventAt
    phase := .idle }

/-! ## Removing -/

/-- `RemoveFromHALQueue` counts the records. -/
def countElements (dispatcher : Nat) : CLR_HW_Hardware :=
  { hardware with
    disposed := hardware.disposed ++ [dispatcher]
    phase := .removing dispatcher hardware.m_HalQueue.NumberOfElements }

/-- The next record is taken from the queue. -/
def popRecord (dispatcher remaining : Nat) : CLR_HW_Hardware :=
  match hardware.m_HalQueue.Pop with
  | (none, _) => { hardware with usedNull := true }
  | (some testRec, m_HalQueue) => { hardware with
      m_HalQueue
      phase := .popped dispatcher remaining testRec (hardware.eventAt testRec) }

/-- A record of the dispatcher is left out. -/
def testRecord (dispatcher remaining testRec : Nat) (event : SavedEvent) :
    CLR_HW_Hardware :=
  if (hardware.eventAt testRec).m_context ≠ dispatcher then
    { hardware with phase := .pushing dispatcher remaining testRec event }
  else
    { hardware with phase := .removing dispatcher remaining }

/-- A place for the record is taken at the other end of the queue. -/
def pushRecord (dispatcher remaining testRec : Nat) : CLR_HW_Hardware :=
  match hardware.m_HalQueue.Push with
  | (none, _) => { hardware with usedNull := true }
  | (some newRec, m_HalQueue) => { hardware with
      m_HalQueue
      phase := .assigning dispatcher remaining testRec newRec }

/-- The record is copied to its new place. -/
def assignRecord (dispatcher remaining testRec newRec : Nat) :
    CLR_HW_Hardware :=
  { hardware with
    m_data := Function.update hardware.m_data newRec
      ((hardware.m_data newRec).AssignFrom (hardware.m_data testRec))
    phase := .removing dispatcher remaining }

/-! ## Dispatching -/

/-- `SpawnDispatcher` reads the first node. -/
def beginSpawn (rebootPending : Bool) : CLR_HW_Hardware :=
  match hardware.application.m_applicationQueue with
  | [] => hardware
  | interrupt :: _ =>
      if rebootPending then hardware
      else { hardware with phase := .spawning interrupt }

/-- `SpawnDispatcher` goes on when there is a thread. -/
def endSpawn (interrupt : CLR_RT_ApplicationInterrupt) (ensured : Bool)
    (outcomes : List DispatchOutcome) : CLR_HW_Hardware :=
  if ensured && hardware.application.dispatching.isNone then
    { hardware with
      application := hardware.application.dispatchNode interrupt outcomes
      phase := .idle }
  else
    { hardware with phase := .idle }

end CLR_HW_Hardware

/-! ## Steps -/

/-- What can happen: an interrupt, or the next step of the runtime.  A garbage
collection releases dispatchers between two operations, while memory for a node
is allocated, or while a thread for the dispatch is created. -/
inductive Happening where
  | save (context : Nat) (data1 data2 : UInt32) (time : Int64)
  | beginTransfer
  | peek
  | copy
  | outOfMemory
  | popTransferred
  | countElements (dispatcher : Nat)
  | popRecord
  | endRemoval
  | testRecord
  | pushRecord
  | assignRecord
  | beginSpawn (rebootPending : Bool)
  | endSpawn (ensured : Bool) (outcomes : List DispatchOutcome)
  | threadTerminates (outcomes : List DispatchOutcome)
  | release (dispatcher : Nat) (calls : List (List DispatchOutcome))

/-- The phases in which dispatchers can be released. -/
def Phase.releases : Phase → Bool
  | .idle | .transferring _ | .spawning _ => true
  | _ => false

open CLR_HW_Hardware in
/-- The state after what happens, where it can happen. -/
def after (hardware : CLR_HW_Hardware) :
    Happening → Option CLR_HW_Hardware
  | .save context data1 data2 time =>
      some (hardware.SaveToHALQueue context data1 data2 time)
  | .release dispatcher calls =>
      if hardware.phase.releases then
        some { hardware with
          application := hardware.application.ReleaseWhenDeadEx dispatcher
            calls }
      else none
  | happening =>
      match hardware.phase, happening with
      | .idle, .beginTransfer => some { hardware with phase := .transfer }
      | .transfer, .peek => some hardware.peek
      | .transferring rec, .copy => some (hardware.copy rec)
      | .transferring _, .outOfMemory => some hardware.outOfMemory
      | .transferred _, .popTransferred => some hardware.popTransferred
      | .idle, .countElements dispatcher =>
          some (hardware.countElements dispatcher)
      | .removing _ 0, .endRemoval => some { hardware with phase := .idle }
      | .removing dispatcher (remaining + 1), .popRecord =>
          some (hardware.popRecord dispatcher remaining)
      | .popped dispatcher remaining testRec event, .testRecord =>
          some (hardware.testRecord dispatcher remaining testRec event)
      | .pushing dispatcher remaining testRec _, .pushRecord =>
          some (hardware.pushRecord dispatcher remaining testRec)
      | .assigning dispatcher remaining testRec newRec, .assignRecord =>
          some (hardware.assignRecord dispatcher remaining testRec newRec)
      | .idle, .beginSpawn rebootPending =>
          some (hardware.beginSpawn rebootPending)
      | .spawning interrupt, .endSpawn ensured outcomes =>
          some (hardware.endSpawn interrupt ensured outcomes)
      | .idle, .threadTerminates outcomes =>
          if hardware.application.dispatching.isSome then
            some { hardware with
              application := hardware.application.threadTerminates outcomes }
          else none
      | _, _ => none

/-- The state after the initialization, with any storage. -/
structure Initialized (hardware : CLR_HW_Hardware) : Prop where
  m_HalQueue : ∃ size, 0 < size ∧
    hardware.m_HalQueue = Hal_Queue_UnknownSize.Initialize size
  application : hardware.application = {
    m_applicationQueue := []
    m_queuedInterrupts := 0
    dispatching := none
    transferred := []
    dispatched := []
    released := []
    usedUnlinked := false }
  phase : hardware.phase = .idle
  saved : hardware.saved = []
  displaced : hardware.displaced = []
  discarded : hardware.discarded = []
  disposed : hardware.disposed = []
  usedNull : hardware.usedNull = false

end Interrupts

end NanoClr
