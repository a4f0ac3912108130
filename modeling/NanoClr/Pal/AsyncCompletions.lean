import Mathlib.Algebra.Ring.Int.Defs
import Mathlib.Algebra.Ring.Nat
import Mathlib.Logic.Function.Basic
import Mathlib.Tactic.Common

/-!
# Completions and continuations

A completion waits on a list that is sorted by time; when its time has come, it
is executed in the interrupt, or moves to the list of continuations.  A list
ends with a sentinel that is laid over the list itself: its forward link is
null, and the time that is read through it is whatever lies behind the list in
memory.
-/

namespace NanoClr

namespace Pal

/-- The compare value when nothing is pending. -/
def HAL_COMPLETION_IDLE_VALUE : Nat := 0x0000FFFFFFFFFFFF

/-- What a completion was initialized with. -/
structure Completion where
  executeInISR : Bool
  hasEntryPoint : Bool

/-- What happens to a completion. -/
inductive Mark where
  | enqueued (completion : Nat)
  | aborted (completion : Nat)
  | executed (completion : Nat)
  | called (completion : Nat)
  deriving DecidableEq

/-- The completion that a mark is about. -/
def Mark.completion : Mark → Nat
  | .enqueued completion | .aborted completion | .executed completion
  | .called completion => completion

/-- The two lists, the times of the completions, the compare value, and the
marks, the newest first. -/
structure Timers where
  completionList : List Nat
  continuationList : List Nat
  eventTimeTicks : Nat → Nat
  compare : Nat
  trace : List Mark

/-- A pointer to a node of the completion list. -/
inductive NodePointer where
  | null
  | tail
  | node (completion : Nat)
  deriving DecidableEq

namespace Timers

/-- A mark is put in front of the others. -/
def mark (timers : Timers) (mark : Mark) : Timers :=
  { timers with trace := mark :: timers.trace }

/-- `Time_SetCompare`. -/
def setCompare (timers : Timers) (ticks : Nat) : Timers :=
  { timers with compare := ticks }

/-! ## Lists -/

/-- `FirstNode` of the completion list. -/
def firstNode (timers : Timers) : NodePointer :=
  match timers.completionList with
  | [] => .tail
  | completion :: _ => .node completion

/-- `Next` of a node is not null. -/
def isLinked (timers : Timers) (completion : Nat) : Bool :=
  completion ∈ timers.completionList ∨ completion ∈ timers.continuationList

/-- `Unlink`, from whichever list the node is in. -/
def unlink (timers : Timers) (completion : Nat) : Timers :=
  { timers with
    completionList := timers.completionList.erase completion
    continuationList := timers.continuationList.erase completion }

/-- Put an element before another one. -/
def insertBefore (other completion : Nat) : List Nat → List Nat
  | [] => []
  | first :: rest =>
      if first = other then completion :: first :: rest
      else first :: insertBefore other completion rest

/-- `InsertBeforeNode` on the completion list. -/
def insertBeforeNode (timers : Timers) (target : NodePointer)
    (completion : Nat) : Timers :=
  let unlinked := timers.unlink completion
  match target with
  | .null => timers
  | .tail =>
      { unlinked with
        completionList := unlinked.completionList ++ [completion] }
  | .node other =>
      if other = completion then timers
      else
        { unlinked with
          completionList :=
            insertBefore other completion unlinked.completionList }

/-! ## `EnqueueTicks` and `Abort` -/

/-- The search of `EnqueueTicks` from a node of the list on.  At the sentinel
it reads a time from behind the list, and goes on to the null pointer unless
that time is later. -/
def findPosition (eventTimeTicks : Nat → Nat) (tailTicks ticks : Nat) :
    List Nat → NodePointer
  | [] => if ticks < tailTicks then .tail else .null
  | completion :: rest =>
      if ticks < eventTimeTicks completion then .node completion
      else findPosition eventTimeTicks tailTicks ticks rest

/-- `EnqueueTicks`, where the time behind the list is given. -/
def enqueueTicks (timers : Timers) (completion ticks tailTicks : Nat) :
    Timers :=
  let timers :=
    { timers.mark (.enqueued completion) with
      eventTimeTicks :=
        Function.update timers.eventTimeTicks completion ticks }
  let position :=
    if timers.completionList = [] then timers.firstNode
    else findPosition timers.eventTimeTicks tailTicks ticks
      timers.completionList
  let timers := timers.insertBeforeNode position completion
  if timers.firstNode = .node completion then timers.setCompare ticks
  else timers

/-- `HAL_COMPLETION::Abort`. -/
def abort (timers : Timers) (completion : Nat) : Timers :=
  let firstNode := timers.firstNode
  let timers := (timers.unlink completion).mark (.aborted completion)
  if firstNode = .node completion then
    match timers.completionList with
    | [] => timers.setCompare HAL_COMPLETION_IDLE_VALUE
    | first :: _ => timers.setCompare (timers.eventTimeTicks first)
  else timers

/-! ## `DequeueAndExec` -/

/-- What a callback in the interrupt calls. -/
inductive Call where
  | enqueueTicks (completion ticks tailTicks : Nat)
  | abort (completion : Nat)

/-- What a call of a callback does. -/
def call (timers : Timers) : Call → Timers
  | .enqueueTicks completion ticks tailTicks =>
      timers.enqueueTicks completion ticks tailTicks
  | .abort completion => timers.abort completion

/-- `HAL_CONTINUATION::Execute`: the callback, with what it calls. -/
def callBack (attributes : Nat → Completion) (timers : Timers)
    (completion : Nat) (calls : List Call) : Timers :=
  if (attributes completion).hasEntryPoint then
    calls.foldl call (timers.mark (.called completion))
  else timers

/-- `HAL_CONTINUATION::Enqueue`. -/
def enqueue (attributes : Nat → Completion) (timers : Timers)
    (completion : Nat) : Timers :=
  if (attributes completion).hasEntryPoint then
    let unlinked := timers.unlink completion
    { unlinked with
      continuationList := unlinked.continuationList ++ [completion] }
  else timers

/-- `HAL_COMPLETION::Execute`. -/
def execute (attributes : Nat → Completion) (timers : Timers)
    (completion : Nat) (calls : List Call) : Timers :=
  let timers := timers.mark (.executed completion)
  if (attributes completion).executeInISR then
    callBack attributes timers completion calls
  else enqueue attributes timers completion

/-- `DequeueAndExec` at a time. -/
def dequeueAndExec (attributes : Nat → Completion) (timers : Timers)
    (now : Nat) (calls : List Call) : Timers :=
  match timers.completionList with
  | [] => timers
  | completion :: _ =>
      let timers :=
        if timers.eventTimeTicks completion ≤ now then
          execute attributes (timers.unlink completion) completion calls
        else timers
      timers.setCompare
        (if timers.isLinked completion then timers.eventTimeTicks completion
        else HAL_COMPLETION_IDLE_VALUE)

/-- `HAL_CONTINUATION::Dequeue_And_Execute`, up to what the callback calls. -/
def dequeue_And_Execute (timers : Timers) : Timers :=
  match timers.continuationList with
  | [] => timers
  | completion :: _ => (timers.unlink completion).mark (.called completion)

/-! ## `WaitForInterrupts` -/

/-- The flags of `WaitForInterrupts`: to clear the compare value afterwards, to
set it anew, or to leave it. -/
inductive WaitState where
  | nilCompare
  | resetCompare
  | keep
  deriving DecidableEq

/-- `WaitForInterrupts` up to the sleep. -/
def waitForInterrupts (timers : Timers) (expireTimeInTicks : Nat) :
    Timers × WaitState :=
  match timers.completionList with
  | [] => (timers.setCompare expireTimeInTicks, .nilCompare)
  | first :: _ =>
      if expireTimeInTicks < timers.eventTimeTicks first then
        (timers.setCompare expireTimeInTicks, .resetCompare)
      else (timers, .keep)

/-- `WaitForInterrupts` after the sleep, where the time behind the list is
given. -/
def wakeUp (timers : Timers) (state : WaitState) (tailTicks : Nat) : Timers :=
  match state with
  | .nilCompare => timers.setCompare HAL_COMPLETION_IDLE_VALUE
  | .resetCompare =>
      match timers.completionList with
      | [] => timers.setCompare tailTicks
      | first :: _ => timers.setCompare (timers.eventTimeTicks first)
  | .keep => timers

end Timers

/-! ## Runs -/

/-- The timers, and whether a thread sleeps in `WaitForInterrupts`. -/
structure TimerState where
  timers : Timers
  waiting : Option Timers.WaitState

/-- What happens to the timers. -/
inductive TimerEvent where
  | enqueueTicks (completion ticks tailTicks : Nat)
  | dequeueAndExec (now : Nat) (calls : List Timers.Call)
  | abort (completion : Nat)
  | dequeue_And_Execute
  | sleep (expireTimeInTicks : Nat)
  | wake (tailTicks : Nat)

/-- `InitializeList` of both lists, and no timer programmed. -/
def TimerStart (state : TimerState) : Prop :=
  state.timers.completionList = [] ∧
    state.timers.continuationList = [] ∧
    state.timers.compare = HAL_COMPLETION_IDLE_VALUE ∧
    state.timers.trace = [] ∧
    state.waiting = none

/-- The steps of the timers; a thread wakes up only after it has gone to
sleep. -/
inductive TimerStep (attributes : Nat → Completion) :
    TimerState → TimerEvent → TimerState → Prop
  | enqueueTicks (timers : Timers) (waiting : Option Timers.WaitState)
      (completion ticks tailTicks : Nat) :
      TimerStep attributes ⟨timers, waiting⟩
        (.enqueueTicks completion ticks tailTicks)
        ⟨timers.enqueueTicks completion ticks tailTicks, waiting⟩
  | dequeueAndExec (timers : Timers) (waiting : Option Timers.WaitState)
      (now : Nat) (calls : List Timers.Call) :
      TimerStep attributes ⟨timers, waiting⟩ (.dequeueAndExec now calls)
        ⟨timers.dequeueAndExec attributes now calls, waiting⟩
  | abort (timers : Timers) (waiting : Option Timers.WaitState)
      (completion : Nat) :
      TimerStep attributes ⟨timers, waiting⟩ (.abort completion)
        ⟨timers.abort completion, waiting⟩
  | dequeue_And_Execute (timers : Timers)
      (waiting : Option Timers.WaitState) :
      TimerStep attributes ⟨timers, waiting⟩ .dequeue_And_Execute
        ⟨timers.dequeue_And_Execute, waiting⟩
  | sleep (timers : Timers) (expireTimeInTicks : Nat) :
      TimerStep attributes ⟨timers, none⟩ (.sleep expireTimeInTicks)
        ⟨(timers.waitForInterrupts expireTimeInTicks).1,
          some (timers.waitForInterrupts expireTimeInTicks).2⟩
  | wake (timers : Timers) (state : Timers.WaitState) (tailTicks : Nat) :
      TimerStep attributes ⟨timers, some state⟩ (.wake tailTicks)
        ⟨timers.wakeUp state tailTicks, none⟩

end Pal

end NanoClr
