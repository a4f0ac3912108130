import NanoClr.GarbageCollector.ObjectShapes

/-!
# The marking loop

`ComputeReachabilityGraphForMultipleBlocks` walks the object graph with an
explicit stack that is spread over several mark stack lists.  The lists are
numbered in the order in which they are linked; a pointer to an element names
the list whose buffer it points into.  Writes are not checked against the size
of a buffer, as in the source.
-/

namespace NanoClr

open HeapBlock

namespace GarbageCollector

/-- The elements of the first list of the mark stack, and the most of a further
one. -/
def c_minimumSpaceForGC : Nat := 128

/-- A range of blocks that still has to be visited. -/
structure MarkStackElement where
  ptr : Nat
  num : Nat

/-- A pointer into the buffer of a mark stack list. -/
structure ElementPointer where
  list : Nat
  index : Nat
  deriving DecidableEq

/-- A mark stack list: its buffer, whose first element is a sentinel, and the
pointers to the last and to the topmost element. -/
structure MarkStack where
  elements : Nat → MarkStackElement
  size : Nat
  last : ElementPointer
  top : ElementPointer

/-- `MarkStack::Initialize` of a list whose buffer holds anything. -/
def markStackInitialize (stack : MarkStack) (list num : Nat) : MarkStack :=
  { elements := Function.update stack.elements 0 ⟨0, 0⟩
    size := num
    last := ⟨list, num - 1⟩
    top := ⟨list, 0⟩ }

/-- What the marking loop shares with its callers: memory, the mark stack
lists, the list that is current, the flag that a range was dropped, and the
list of reachable weak delegate lists. -/
structure Collector where
  memory : Memory
  lists : Nat → MarkStack
  listCount : Nat
  markStack : Nat
  outOfStackSpaceForGC : Bool
  weakDelegatesReachable : Nat

/-- The local variables of the marking loop. -/
structure Scan where
  stackList : Nat
  stack : ElementPointer
  stackLast : ElementPointer
  lst : Nat
  num : Nat

/-! ## The macros -/

/-- `COMPUTEREACHABILITY_LOADSTATE`. -/
def loadState (collector : Collector) (lst num : Nat) : Scan :=
  { stackList := collector.markStack
    stack := (collector.lists collector.markStack).top
    stackLast := (collector.lists collector.markStack).last
    lst
    num }

/-- `COMPUTEREACHABILITY_SAVESTATE`. -/
def saveState (collector : Collector) (scan : Scan) : Collector :=
  { collector with
    lists := Function.update collector.lists collector.markStack
      { collector.lists collector.markStack with
        last := scan.stackLast
        top := scan.stack }
    markStack := scan.stackList }

/-! ## Elements -/

/-- The element at a position of the mark stack. -/
def element (collector : Collector) (pointer : ElementPointer) :
    MarkStackElement :=
  (collector.lists pointer.list).elements pointer.index

/-- The element at a position of the mark stack is changed. -/
def setElement
    (collector : Collector)
    (pointer : ElementPointer)
    (element : MarkStackElement) : Collector :=
  { collector with
    lists := Function.update collector.lists pointer.list
      { collector.lists pointer.list with
        elements := Function.update (collector.lists pointer.list).elements
          pointer.index element } }

/-- Take the next block off the topmost element. -/
def takeBlock (collector : Collector) (scan : Scan) :
    Collector × Scan × Nat :=
  let top := element collector scan.stack
  let collector := setElement collector scan.stack ⟨top.ptr + 3, top.num - 1⟩
  let scan :=
    if top.num - 1 = 0 then
      { scan with stack := ⟨scan.stack.list, scan.stack.index - 1⟩ }
    else scan
  (collector, scan, top.ptr)

/-- The element above the topmost one. -/
def above (pointer : ElementPointer) : ElementPointer :=
  ⟨pointer.list, pointer.index + 1⟩

/-- Push the rest of the range behind its first block. -/
def pushRest (collector : Collector) (scan : Scan) : Collector × Scan :=
  (setElement collector (above scan.stack) ⟨scan.lst + 3, scan.num - 1⟩,
    { scan with stack := above scan.stack })

/-! ## Room for a push -/

/-- The first size that can be allocated, from the full size halved down to one
element, with memory after the allocation. -/
def granted (allocate : Nat → Option Memory) : Option (Nat × Memory) :=
  ((List.range 8).map (c_minimumSpaceForGC / 2 ^ ·)).findSome? fun cElement =>
    (allocate cElement).map fun memory => (cElement, memory)

/-- Link a newly allocated list at the back and make it current. -/
def extend (collector : Collector) (scan : Scan) (cElement : Nat)
    (memory : Memory) : Collector × Scan :=
  let collector := saveState { collector with memory } scan
  let collector :=
    { collector with
      lists := Function.update collector.lists collector.listCount
        (markStackInitialize (collector.lists collector.listCount)
          collector.listCount cElement)
      listCount := collector.listCount + 1
      markStack := collector.listCount }
  (collector, loadState collector scan.lst scan.num)

/-- What is done before a push when the topmost element is the last one; none
when there is no space for another list. -/
def makeRoom
    (allocate : Nat → Option Memory)
    (collector : Collector)
    (scan : Scan) : Option (Collector × Scan) :=
  if scan.stack = scan.stackLast then
    if scan.stackList + 1 < collector.listCount then
      let collector := saveState collector scan
      some (collector, loadState collector scan.lst scan.num)
    else if collector.outOfStackSpaceForGC then none
    else
      (granted allocate).map fun (cElement, memory) =>
        extend collector scan cElement memory
  else some (collector, scan)

/-! ## The loop -/

/-- Visit a block; what it refers to is scanned next. -/
def visitBlock (collector : Collector) (scan : Scan) (block : Nat) :
    Collector × Scan :=
  let (memory, lst, num) :=
    visit collector.memory collector.weakDelegatesReachable block
  ({ collector with memory }, { scan with lst, num })

/-- One round of `ComputeReachabilityGraphForMultipleBlocks`. -/
def round
    (allocate : Nat → Option Memory)
    (collector : Collector)
    (scan : Scan) : LoopStep (Collector × Scan) Collector :=
  if scan.num = 0 then
    if (element collector scan.stack).num = 0 then
      if scan.stackList = 0 then .done (saveState collector scan)
      else
        let collector :=
          { saveState collector scan with markStack := scan.stackList - 1 }
        let (collector, scan, block) :=
          takeBlock collector (loadState collector scan.lst scan.num)
        .next (visitBlock collector scan block)
    else
      let (collector, scan, block) := takeBlock collector scan
      .next (visitBlock collector scan block)
  else if 1 < scan.num then
    match makeRoom allocate collector scan with
    | none =>
        .next ({ collector with outOfStackSpaceForGC := true },
          { scan with lst := 0, num := 0 })
    | some (collector, scan) =>
        let (collector, scan) := pushRest collector scan
        .next (visitBlock collector scan scan.lst)
  else .next (visitBlock collector scan scan.lst)

end GarbageCollector

end NanoClr
