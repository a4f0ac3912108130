import NanoClr.GarbageCollector.MarkingWorklist
import NanoClr.Heap.HeapRewrites
import NanoClr.Library.TransitionSystem

/-!
# `Mark` and `MarkSlow`

`Mark` hands its roots to the marking loop, rescans the heap while ranges were
dropped, marks the objects that wait for finalization, and rescans again.  It
is a transition system: a step is either a round of the marking loop, with the
outcome of the allocations it tries, or a step of the surrounding code.
-/

namespace NanoClr

open HeapBlock HeapCluster

namespace GarbageCollector

/-- A root: the block that is handed to `CheckSingleBlock`, or the range that
is handed to `CheckMultipleBlocks` (of one block for `CheckSingleBlock_Force`). -/
inductive Root where
  | single (block : Nat)
  | multiple (lst num : Nat)

/-- What a collection starts from. -/
structure MarkInput where
  memory : Memory
  clusters : List Nat
  roots : List Root
  finalizersAlive : List Nat
  weakDelegatesReachable : Nat

/-- The heap of an input. -/
def MarkInput.heap (input : MarkInput) : Heap :=
  ⟨input.memory, input.clusters⟩

/-- Where `Mark` is: at its roots, at the loop test of `MarkSlow`, at a block
of a cluster, behind the scan of that block, at the finalizers, or at its end.
The flag tells the second call of `MarkSlow` from the first. -/
inductive Phase where
  | roots (remaining : List Root)
  | test (final : Bool)
  | walk (final : Bool) (clusters : List Nat) (block : Nat)
  | advance (final : Bool) (clusters : List Nat) (block : Nat)
  | finalizers (remaining : List Nat)
  | finished

/-- The collector, the locals of the marking loop while it runs, the place in
`Mark`, and the finalizers that became pending. -/
structure MarkState where
  collector : Collector
  scan : Option Scan
  phase : Phase
  finalizersPending : List Nat

/-! ## The code around the marking loop -/

/-- Enter the marking loop. -/
def enterScan (state : MarkState) (lst num : Nat) : MarkState :=
  { state with scan := some (loadState state.collector lst num) }

/-- `ComputeReachabilityGraphForSingleBlock`. -/
def checkSingleBlock (state : MarkState) (block : Nat) : MarkState :=
  if block = 0 ∨ isAlive state.collector.memory block = true then state
  else enterScan state block 1

/-- `CheckMultipleBlocks`. -/
def checkMultipleBlocks (state : MarkState) (lst num : Nat) : MarkState :=
  if lst = 0 then state else enterScan state lst num

/-- The place in `MarkSlow` before the first of some clusters. -/
def startWalk (memory : Memory) (final : Bool) : List Nat → Phase
  | [] => .test final
  | cluster :: rest =>
      .walk final (cluster :: rest) (payloadStart memory cluster)

/-- One step of `Mark` and `MarkSlow` outside the marking loop. -/
def control (input : MarkInput) (state : MarkState) : Option MarkState :=
  let memory := state.collector.memory
  match state.phase with
  | .roots [] => some { state with phase := .test false }
  | .roots (.single block :: rest) =>
      some (checkSingleBlock { state with phase := .roots rest } block)
  | .roots (.multiple lst num :: rest) =>
      some (checkMultipleBlocks { state with phase := .roots rest } lst num)
  | .test final =>
      if state.collector.outOfStackSpaceForGC then
        some { state with
          collector := { state.collector with outOfStackSpaceForGC := false }
          phase := startWalk memory final input.clusters }
      else if final then some { state with phase := .finished }
      else some { state with phase := .finalizers input.finalizersAlive }
  | .walk final [] _ => some { state with phase := .test final }
  | .walk final (cluster :: rest) block =>
      if block < payloadEnd memory cluster then
        if isAlive memory block ∧ isEvent memory block = false then
          some (checkMultipleBlocks
            { state with phase := .advance final (cluster :: rest) block }
            block 1)
        else
          some { state with phase := .advance final (cluster :: rest) block }
      else some { state with phase := startWalk memory final rest }
  | .advance final clusters block =>
      some { state with
        phase := .walk final clusters (block + words memory block) }
  | .finalizers [] => some { state with phase := .test true }
  | .finalizers (block :: rest) =>
      if isAlive memory block then
        some { state with phase := .finalizers rest }
      else
        some (checkSingleBlock
          { state with
            phase := .finalizers rest
            finalizersPending := state.finalizersPending ++ [block] } block)
  | .finished => none

/-! ## Runs -/

/-- What a step of `Mark` is. -/
inductive CollectEvent where
  | control
  | round (allocate : Nat → Option Memory)

/-- `Mark` prepares the helper buffers. -/
def CollectStart (input : MarkInput) (state : MarkState) : Prop :=
  state.collector.memory =
      dblLinkedListInitialize input.memory input.weakDelegatesReachable ∧
    state.collector.listCount = 1 ∧
    state.collector.markStack = 0 ∧
    (∃ stack, state.collector.lists 0 =
      markStackInitialize stack 0 c_minimumSpaceForGC) ∧
    state.collector.outOfStackSpaceForGC = false ∧
    state.collector.weakDelegatesReachable = input.weakDelegatesReachable ∧
    state.scan = none ∧
    state.phase = .roots input.roots ∧
    state.finalizersPending = []

/-- The steps of a collection: the control of `Mark`, and the rounds of the scan
that it has begun. -/
inductive CollectStep (input : MarkInput) :
    MarkState → CollectEvent → MarkState → Prop
  | control {state later : MarkState}
      (idle : state.scan = none)
      (steps : control input state = some later) :
      CollectStep input state .control later
  | next {state : MarkState} {scan scan' : Scan} {collector : Collector}
      {allocate : Nat → Option Memory}
      (scans : state.scan = some scan)
      (allocates : ∀ cElement memory, allocate cElement = some memory →
        Allocates ⟨state.collector.memory, input.clusters⟩ memory)
      (rounds : round allocate state.collector scan =
        .next (collector, scan')) :
      CollectStep input state (.round allocate)
        { state with collector, scan := some scan' }
  | done {state : MarkState} {scan : Scan} {collector : Collector}
      {allocate : Nat → Option Memory}
      (scans : state.scan = some scan)
      (allocates : ∀ cElement memory, allocate cElement = some memory →
        Allocates ⟨state.collector.memory, input.clusters⟩ memory)
      (rounds : round allocate state.collector scan = .done collector) :
      CollectStep input state (.round allocate)
        { state with collector, scan := none }

/-- The runs of `Mark` on an input. -/
def CollectRun (input : MarkInput) :
    List (MarkState × CollectEvent) → MarkState → Prop :=
  Run (CollectStart input) (CollectStep input)

/-! ## Conditions on steps -/

/-- Every push of a step finds room. -/
def StepFindsRoom (state : MarkState) (event : CollectEvent) : Prop :=
  match state.scan, event with
  | some scan, .round allocate => HasRoom allocate state.collector scan
  | _, _ => True

/-- A step visits a block. -/
def VisitsNext (state : MarkState) (event : CollectEvent) (block : Nat) :
    Prop :=
  match state.scan, event with
  | some scan, .round allocate =>
      nextBlock allocate state.collector scan = some block
  | _, _ => False

/-- A step visits no weak delegate list that is marked already. -/
def StepVisitsOnce (state : MarkState) (event : CollectEvent) : Prop :=
  ∀ block, VisitsNext state event block →
    isWeakDelegateList state.collector.memory block = true →
    isAlive state.collector.memory block = false

end GarbageCollector

end NanoClr
