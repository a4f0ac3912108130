import NanoClr.Heap.SweepHeap
import Mathlib.Data.List.Nodup

/-!
# The event cache

Blocks that the runtime gives back are kept in bounded lists by their sizes,
and blocks that it asks for are taken from there before the heap is asked.  A
collection gives everything that is kept back to the heap.
-/

namespace NanoClr

open HeapBlock HeapCluster

namespace EventCache

/-- The flag for extractions that cause no collection when they fail. -/
def HB_NoGcOnFailure : Nat := 0x200

/-- The flag for extractions on behalf of a collection. -/
def HB_SpecialGCAllocation : Nat := 0x400

/-- Any of the flags for extractions that cause no collection. -/
def HB_NoGcOnFailedAllocation : Nat :=
  HB_SpecialGCAllocation ||| HB_NoGcOnFailure

/-- The number of the lists. -/
def c_maxFastLists : Nat := 40

/-- The flags of every block that passes through the cache. -/
def eventFlags : Nat := HB_Alive ||| HB_Event

/-- What is asked for. -/
structure Extraction where
  dataType : DataType
  flags : Nat
  blocks : Nat

/-- The cache: memory and the blocks on each list, first one first. -/
structure BoundedLists where
  memory : Memory
  m_events : Fin c_maxFastLists → List Nat

/-- The list for blocks of a size; the first one takes the large blocks. -/
def listFor (blocks : Nat) : Fin c_maxFastLists :=
  if small : blocks < c_maxFastLists then ⟨blocks, small⟩ else ⟨0, by decide⟩

/-- A node is on no list any more. -/
def unlinkBlock (cache : BoundedLists) (node : Nat) : BoundedLists :=
  { cache with m_events := fun list => (cache.m_events list).erase node }

/-- A node moves from where it was to the end of a list. -/
def linkAtBack
    (cache : BoundedLists) (list : Fin c_maxFastLists) (node : Nat) :
    BoundedLists :=
  let unlinked := unlinkBlock cache node
  { unlinked with
    m_events := Function.update unlinked.m_events list
      (unlinked.m_events list ++ [node]) }

/-- `Append_Node`. -/
def appendNode (cache : BoundedLists) (node : Nat) : BoundedLists :=
  let blocks := dataSize cache.memory node
  let memory := setDataId cache.memory node
    (rawId DataType.cachedBlock.code eventFlags blocks)
  linkAtBack { cache with memory } (listFor blocks) node

/-! ## Extraction from the lists -/

/-- The search for the smallest block that is large enough; the first one must
not be too large.  The best block so far comes with its size. -/
def findBest (memory : Memory) (blocks : Nat) :
    List Nat → Option (Nat × Nat) → Option (Nat × Nat)
  | [], best => best
  | ptr :: rest, best =>
      let size := dataSize memory ptr
      if size = blocks then
        some (ptr, blocks)
      else if blocks ≤ size then
        match best with
        | some (_, bestSize) =>
            if size < bestSize then
              findBest memory blocks rest (some (ptr, size))
            else
              findBest memory blocks rest best
        | none =>
            if size ≤ blocks * 20 % 2 ^ 32 / 16 then
              findBest memory blocks rest (some (ptr, size))
            else
              findBest memory blocks rest none
      else
        findBest memory blocks rest best

/-- A block is cut in two, and the tail goes back to the lists. -/
def requeueTail
    (cache : BoundedLists) (ptr blocks bestSize : Nat) : BoundedLists :=
  let following := ptr + 3 * blocks
  let memory := setDataId cache.memory ptr
    (rawId DataType.cachedBlock.code eventFlags blocks)
  let memory := setDataId memory following
    (rawId DataType.cachedBlock.code eventFlags (bestSize - blocks))
  let memory := clearData memory following
  appendNode { cache with memory } following

/-- A block leaves the lists under its new type. -/
def takeNode
    (cache : BoundedLists) (extraction : Extraction) (ptr : Nat) :
    BoundedLists :=
  let cache := unlinkBlock cache ptr
  let memory := setDataId cache.memory ptr
    (rawId extraction.dataType.code eventFlags (dataSize cache.memory ptr))
  if extraction.flags &&& HB_InitializeToZero ≠ 0 then
    { cache with memory := initializeToZero memory ptr }
  else
    { cache with memory }

/-- `Extract_Node_Slow`, as far as the lists are concerned: nothing when the
heap has to be asked. -/
def extractNodeSlow (cache : BoundedLists) (extraction : Extraction) :
    Option (BoundedLists × Nat) :=
  match findBest cache.memory extraction.blocks
      (cache.m_events ⟨0, by decide⟩) none with
  | some (ptr, bestSize) =>
      let cache :=
        if extraction.blocks < bestSize then
          requeueTail cache ptr extraction.blocks bestSize
        else
          cache
      some (takeNode cache extraction ptr, ptr)
  | none => none

/-- `Extract_Node_Fast`, as far as the lists are concerned. -/
def extractNodeFast
    (cache : BoundedLists) (extraction : Extraction)
    (small : extraction.blocks < c_maxFastLists) :
    Option (BoundedLists × Nat) :=
  match cache.m_events ⟨extraction.blocks, small⟩ with
  | ptr :: _ => some (takeNode cache extraction ptr, ptr)
  | [] => none

/-! ## Collections -/

/-- Blocks become free, without being in a free list yet. -/
def freeNodes (memory : Memory) : List Nat → Memory
  | [] => memory
  | ptr :: rest =>
      let memory := setDataId memory ptr
        (rawId DataType.freeBlock.code HB_Pinned (dataSize memory ptr))
      freeNodes (clearData memory ptr) rest

/-- All blocks on the lists, list by list. -/
def cachedBlocks (cache : BoundedLists) : List Nat :=
  (List.finRange c_maxFastLists).flatMap cache.m_events

/-- `EventCache_Cleanup`, with the number of heap blocks that become free. -/
def eventCacheCleanup (cache : BoundedLists) : BoundedLists × Nat :=
  ({ memory := freeNodes cache.memory (cachedBlocks cache)
     m_events := fun _ => [] },
    ((cachedBlocks cache).map (dataSize cache.memory)).sum)

/-! ## Runs -/

/-- The cache in a heap, with the blocks that are in the hands of the rest of
the runtime and the extractions that wait for the heap, the innermost first,
each with whether it has caused a collection. -/
structure CacheState where
  cache : BoundedLists
  clusters : List Nat
  handedOut : List Nat
  waiting : List (Extraction × Bool)

/-- The heap in which the cache is. -/
def CacheState.heap (state : CacheState) : Heap :=
  ⟨state.cache.memory, state.clusters⟩

/-- What happens to the cache. -/
inductive CacheCall where
  | append (node : Nat)
  | extractSlow (extraction : Extraction)
  | extractFast (extraction : Extraction)
  | extractFromHeap
  | collect (marks : List (Nat × Bool))
  | giveUp

/-- The heap blocks that the clusters, last one first, have for an
extraction. -/
def extractHeapBlocks (state : CacheState) (extraction : Extraction) :
    Option (Memory × Nat) :=
  extractFromClusters state.cache.memory extraction.dataType.code
    (extraction.flags ||| eventFlags) extraction.blocks state.clusters.reverse

/-- Blocks are extracted under a type of their own. -/
def Extraction.Proper (extraction : Extraction) : Prop :=
  extraction.dataType ≠ .freeBlock ∧ extraction.dataType ≠ .cachedBlock

/-- The steps of the cache.  The runtime gives back blocks that it has, and an
extraction that misses the lists waits for the heap; between its two attempts
there is a collection, around which other calls may come. -/
inductive CacheStep : CacheState → CacheCall → CacheState → Prop
  | append {state : CacheState} {node : Nat} :
      node ∈ state.handedOut →
      CacheStep state (.append node)
        { state with
          cache := appendNode state.cache node
          handedOut := state.handedOut.erase node }
  | slowHit {state : CacheState} {extraction : Extraction}
      {cache : BoundedLists} {block : Nat} :
      extraction.Proper →
      extractNodeSlow state.cache extraction = some (cache, block) →
      CacheStep state (.extractSlow extraction)
        { state with cache, handedOut := block :: state.handedOut }
  | slowMiss {state : CacheState} {extraction : Extraction} :
      extraction.Proper →
      extractNodeSlow state.cache extraction = none →
      CacheStep state (.extractSlow extraction)
        { state with waiting := (extraction, false) :: state.waiting }
  | fastHit {state : CacheState} {extraction : Extraction}
      {cache : BoundedLists} {block : Nat} :
      extraction.Proper → 0 < extraction.blocks →
      (small : extraction.blocks < c_maxFastLists) →
      extractNodeFast state.cache extraction small = some (cache, block) →
      CacheStep state (.extractFast extraction)
        { state with cache, handedOut := block :: state.handedOut }
  | fastMiss {state : CacheState} {extraction : Extraction} :
      extraction.Proper → 0 < extraction.blocks →
      (small : extraction.blocks < c_maxFastLists) →
      extractNodeFast state.cache extraction small = none →
      CacheStep state (.extractFast extraction)
        { state with waiting := (extraction, false) :: state.waiting }
  | heapHit {state : CacheState} {extraction : Extraction} {collected : Bool}
      {waiting : List (Extraction × Bool)} {memory : Memory} {block : Nat} :
      state.waiting = (extraction, collected) :: waiting →
      extraction.blocks ≤ HB_MaxSize →
      extractHeapBlocks state extraction = some (memory, block) →
      block ≠ 0 →
      CacheStep state .extractFromHeap
        { state with
          cache := { state.cache with memory := clearData memory block }
          handedOut := block :: state.handedOut
          waiting }
  | collect {state : CacheState} {extraction : Extraction}
      {waiting : List (Extraction × Bool)} {memory memory' : Memory}
      {marks : List (Nat × Bool)} :
      state.waiting = (extraction, false) :: waiting →
      extraction.blocks ≤ HB_MaxSize →
      extractHeapBlocks state extraction = some (memory, 0) →
      extraction.flags &&& HB_NoGcOnFailedAllocation = 0 →
      (∀ mark ∈ marks, InHeap state.heap mark.1 ∧
        isEvent state.cache.memory mark.1 = false) →
      recoverClusters
        (applyMarks (eventCacheCleanup state.cache).1.memory marks)
        state.clusters = some memory' →
      CacheStep state (.collect marks)
        { state with
          cache := ⟨memory', fun _ => []⟩
          waiting := (extraction, true) :: waiting }
  | giveUp {state : CacheState} {extraction : Extraction} {collected : Bool}
      {waiting : List (Extraction × Bool)} :
      state.waiting = (extraction, collected) :: waiting →
      (HB_MaxSize < extraction.blocks ∨
        (∃ memory, extractHeapBlocks state extraction = some (memory, 0)) ∧
          (collected = true ∨
            extraction.flags &&& HB_NoGcOnFailedAllocation ≠ 0)) →
      CacheStep state .giveUp { state with waiting }

/-- The cache starts empty in a well-formed heap, in which the runtime may
already have some event blocks. -/
structure CacheStart (state : CacheState) : Prop where
  wellFormed : HeapWellFormed state.heap
  empty : ∀ list, state.cache.m_events list = []
  uncached : ∀ block, InHeap state.heap block →
    dataType state.cache.memory block ≠ some .cachedBlock
  nodup : state.handedOut.Nodup
  events : ∀ block ∈ state.handedOut, InHeap state.heap block ∧
    isEvent state.cache.memory block = true ∧
    isAlive state.cache.memory block = true
  idle : state.waiting = []

end EventCache

end NanoClr
