import NanoClr.NativeMemory.MemoryCalls

/-!
# Native memory is sound over runs of proper calls

In every run whose calls are all in order, the blocks in use lie in the heap,
are as long as was asked for and share no bytes, and `ReAllocate` moves what is
in a block.
-/

namespace NanoClr

namespace NativeMemory

open HeapBlock Messaging

section Safety

variable {σ : Type} {heap : NodeHeap σ} {location : HeapLocation}
  {use later : Use σ}

/-- What is claimed of a step: the blocks stay sound, and a block that is given
to `ReAllocate` is moved. -/
structure StepSound (heap : NodeHeap σ) (location : HeapLocation)
    (use : Use σ) (call : MemoryCall) (later : Use σ) : Prop where
  sound : later.Sound location
  moves : ∀ ptr len old, call = .reAllocate ptr len → ptr ≠ 0 →
    use.blockAt ptr = some old → use.Moves heap location ptr len later old

/-- No block in use starts at the null pointer. -/
theorem without_null (invariant : MemoryInvariant heap location use) :
    use.without 0 = use.live := by
  apply List.eraseP_of_forall_not
  intro entry member
  simpa using invariant.notNull entry member

theorem allocate_invariant
    {len : UInt32}
    (invariant : MemoryInvariant heap location use)
    (mayAllocate : use.MayAllocate location len)
    (step : use.next heap location (.allocate len) = some later) :
    MemoryInvariant heap location later := by
  have allocation := allocates invariant mayAllocate
  simp only [Use.next] at step
  split at step
  case isTrue isNull =>
    cases step
    exact allocation.refused isNull
  case isFalse notNull =>
    cases step
    exact allocation.granted notNull

theorem releaseStep_invariant
    {ptr : Nat}
    (invariant : MemoryInvariant heap location use)
    (proper : use.Proper location (.release ptr))
    (step : use.next heap location (.release ptr) = some later) :
    MemoryInvariant heap location later := by
  simp only [Use.next] at step
  split at step
  case isTrue => cases step
  case isFalse present =>
    by_cases isNull : ptr = 0
    · subst isNull
      have same : use.memory.Release heap 0 = some use.memory := by
        rw [CLR_RT_Memory.Release, if_pos rfl, ite_self]
      rw [same] at step
      cases step
      exact invariant.sublist List.eraseP_sublist
    · cases found : use.blockAt ptr with
      | none => exact absurd ⟨isNull, by simp [found]⟩ present
      | some entry =>
          obtain ⟨memory, released, kept, -⟩ :=
            release_invariant invariant found
              fun known => proper known entry found
          rw [released] at step
          cases step
          exact kept

/-- A block is allocated where none is given. -/
theorem reAllocate_null_invariant
    {len : UInt32}
    (invariant : MemoryInvariant heap location use)
    (mayAllocate : use.MayAllocate location len)
    (step : use.next heap location (.reAllocate 0 len) = some later) :
    MemoryInvariant heap location later := by
  have allocation := allocates invariant mayAllocate
  have present : ¬ ((0 : Nat) ≠ 0 ∧ (use.blockAt 0).isNone) :=
    fun null => null.1 rfl
  simp only [Use.next, if_neg present, without_null invariant] at step
  by_cases isNull : (use.memory.Allocate heap location len).1 = 0
  · rw [reAllocate_refused isNull] at step
    cases step
    exact allocation.refused isNull
  · rw [reAllocate_new isNull] at step
    simp only [Option.map_some, if_neg isNull, Option.some.injEq] at step
    subst step
    exact allocation.granted isNull

/-- A call that is in order keeps the invariant. -/
theorem MemoryStep.keeps
    {call : MemoryCall}
    (invariant : MemoryInvariant heap location use)
    (proper : use.Proper location call)
    (step : MemoryStep heap location use call later) :
    MemoryInvariant heap location later ∧
      StepSound heap location use call later := by
  have others (kept : MemoryInvariant heap location later)
      (other : ∀ ptr len, call = .reAllocate ptr len → ptr = 0) :
      MemoryInvariant heap location later ∧
        StepSound heap location use call later :=
    ⟨kept, kept.sound, fun ptr len _ isCall notNull =>
      absurd (other ptr len isCall) notNull⟩
  cases call with
  | reset =>
      apply others _ (by simp)
      cases step
      exact reset_invariant invariant proper
  | allocateHeaps =>
      apply others _ (by simp)
      cases step
      exact allocateHeaps_invariant invariant proper.1 proper.2
  | subtractFromSystem len =>
      apply others _ (by simp)
      exact subtractFromSystem_invariant invariant proper.1 proper.2 step
  | allocate len =>
      apply others _ (by simp)
      exact allocate_invariant invariant proper step
  | release ptr =>
      apply others _ (by simp)
      exact releaseStep_invariant invariant proper step
  | reAllocate ptr len =>
      by_cases isNull : ptr = 0
      · subst isNull
        apply others (reAllocate_null_invariant invariant proper.1 step)
        intro ptr len same
        cases same
        rfl
      · obtain ⟨known, fits⟩ := proper.2 isNull
        cases found : use.blockAt ptr with
        | none =>
            have absent : ptr ≠ 0 ∧ (use.blockAt ptr).isNone :=
              ⟨isNull, by simp [found]⟩
            rw [MemoryStep, Use.next, if_pos absent] at step
            cases step
        | some old =>
            obtain ⟨isBlob, shorter⟩ := fits old found
            obtain ⟨kept, moves⟩ := reAllocate_moves invariant proper.1 isNull
              known found isBlob shorter step
            refine ⟨kept, kept.sound, ?_⟩
            intro ptr' len' old' same _ found'
            cases same
            rw [found] at found'
            cases found'
            exact moves
  | store address value =>
      apply others _ (by simp)
      rw [MemoryStep, Use.next] at step
      split at step
      case isTrue =>
        cases step
        exact invariant.withBytes _
      case isFalse => cases step

end Safety

/-- Nodes one behind the other in a heap. -/
structure NodeStack where
  start : Nat
  size : Nat
  top : Nat
  nodes : List EventNode

namespace NodeStack

variable (stack : NodeStack)

/-- The nodes lie apart between the start and the top. -/
structure Ordered : Prop where
  from_ : stack.start ≤ stack.top
  upTo : stack.top ≤ stack.start + stack.size
  inside : ∀ node ∈ stack.nodes, 0 < node.blocks ∧
    stack.start ≤ node.address ∧
    node.address + sizeofHeapBlock.toNat * node.blocks ≤ stack.top
  distinct : stack.nodes.Pairwise fun node other =>
    node.address ≠ other.address

/-- Nothing has been handed out. -/
def unused (location : Nat) (size : UInt32) : NodeStack :=
  ⟨location, size.toNat, location, []⟩

/-- A node behind all others, where there is room. -/
def extract (blocks : UInt32) : Option EventNode × NodeStack :=
  if 0 < blocks.toNat ∧
      stack.top + sizeofHeapBlock.toNat * blocks.toNat ≤
        stack.start + stack.size then
    (some ⟨stack.top, blocks.toNat⟩,
      { stack with
        top := stack.top + sizeofHeapBlock.toNat * blocks.toNat
        nodes := ⟨stack.top, blocks.toNat⟩ :: stack.nodes })
  else
    (none, stack)

/-- A node less. -/
def append (address : Nat) : NodeStack :=
  { stack with
    nodes := stack.nodes.filter fun node => decide (node.address ≠ address) }

/-- The node at an address. -/
def nodeAt (address : Nat) : Option EventNode :=
  stack.nodes.find? fun node => decide (node.address = address)

variable {stack}

theorem unused_ordered (location : Nat) (size : UInt32) :
    (unused location size).Ordered where
  from_ := Nat.le_refl _
  upTo := Nat.le_add_right _ _
  inside := by simp [unused]
  distinct := .nil

theorem Ordered.extract (ordered : stack.Ordered) (blocks : UInt32) :
    (stack.extract blocks).2.Ordered := by
  rw [NodeStack.extract]
  split
  case isFalse => exact ordered
  case isTrue room =>
    refine ⟨ordered.from_.trans (Nat.le_add_right _ _), room.2, ?_, ?_⟩
    · refine List.forall_mem_cons.mpr
        ⟨⟨room.1, ordered.from_, Nat.le_refl _⟩, ?_⟩
      intro node member
      have lies := ordered.inside node member
      exact ⟨lies.1, lies.2.1, lies.2.2.trans (Nat.le_add_right _ _)⟩
    · refine List.pairwise_cons.mpr ⟨?_, ordered.distinct⟩
      intro node member
      have lies := ordered.inside node member
      simp only [sizeofHeapBlock, UInt32.reduceToNat] at lies ⊢
      omega

theorem Ordered.append (ordered : stack.Ordered) (address : Nat) :
    (stack.append address).Ordered where
  from_ := ordered.from_
  upTo := ordered.upTo
  inside := by
    intro node member
    exact ordered.inside node (List.mem_of_mem_filter member)
  distinct := ordered.distinct.sublist List.filter_sublist

theorem Ordered.nodeAt_eq
    {node : EventNode}
    (ordered : stack.Ordered)
    (member : node ∈ stack.nodes) :
    stack.nodeAt node.address = some node := by
  have distinct := ordered.distinct
  rw [nodeAt]
  generalize stack.nodes = nodes at member distinct
  induction nodes with
  | nil => cases member
  | cons first others inductionHypothesis =>
      rw [List.pairwise_cons] at distinct
      rcases List.mem_cons.mp member with rfl | isLater
      · exact List.find?_cons_of_pos (by simp)
      · rw [List.find?_cons_of_neg (by simpa using distinct.1 node isLater)]
        exact inductionHypothesis isLater distinct.2

end NodeStack

/-- A heap of which pieces are handed out one behind the other. -/
structure StackedNodes extends NodeStack where
  ordered : toNodeStack.Ordered

namespace StackedNodes

/-- The heap is laid out. -/
def layOut (location : Nat) (size : UInt32) : StackedNodes :=
  ⟨.unused location size, NodeStack.unused_ordered location size⟩

variable (cache : StackedNodes)

theorem extract_ordered (blocks : UInt32) :
    (cache.extract blocks).2.Ordered :=
  cache.ordered.extract blocks

theorem append_ordered (address : Nat) : (cache.append address).Ordered :=
  cache.ordered.append address

/-- A node for so many blocks; no byte is touched. -/
def Extract_Node (bytes : Bytes) (blocks : UInt32) :
    Option EventNode × StackedNodes × Bytes :=
  ((cache.extract blocks).1,
    ⟨(cache.extract blocks).2, extract_ordered cache blocks⟩, bytes)

/-- A node is given back. -/
def Append_Node (bytes : Bytes) (address : Nat) : StackedNodes × Bytes :=
  (⟨cache.append address, append_ordered cache address⟩, bytes)

/-- The heap blocks of a node. -/
def DataSize (address : Nat) : Nat :=
  ((cache.nodeAt address).map EventNode.blocks).getD 0

/-- Its nodes lie in the heap. -/
def region : Block := ⟨cache.start, cache.size⟩

theorem extract_region (bytes : Bytes) (blocks : UInt32) :
    (cache.Extract_Node bytes blocks).2.1.region = cache.region := by
  simp only [Extract_Node, region, NodeStack.extract]
  split
  case isTrue => rfl
  case isFalse => rfl

theorem extract_keeps
    (bytes : Bytes)
    (blocks : UInt32)
    (node : EventNode)
    (_ : node ∈ cache.nodes)
    (address : Nat)
    (_ : Holds (span node) address) :
    (cache.Extract_Node bytes blocks).2.2 address = bytes address := rfl

theorem extract_none
    (bytes : Bytes)
    (blocks : UInt32)
    (isNone : (cache.Extract_Node bytes blocks).1 = none) :
    (cache.Extract_Node bytes blocks).2.1.nodes = cache.nodes := by
  simp only [Extract_Node, NodeStack.extract] at isNone ⊢
  split at isNone
  case isTrue => cases isNone
  case isFalse full => rw [if_neg full]

theorem extract_some
    (bytes : Bytes)
    (blocks : UInt32)
    (node : EventNode)
    (isNode : (cache.Extract_Node bytes blocks).1 = some node) :
    (cache.Extract_Node bytes blocks).2.1.nodes = node :: cache.nodes ∧
      blocks.toNat ≤ node.blocks ∧
      (∀ address, Holds (span node) address → Holds cache.region address) ∧
      ∀ other ∈ cache.nodes, Apart (span node) (span other) := by
  simp only [Extract_Node, NodeStack.extract] at isNode ⊢
  split at isNode
  case isFalse => cases isNode
  case isTrue room =>
    cases isNode
    rw [if_pos room]
    have from_ := cache.ordered.from_
    refine ⟨rfl, Nat.le_refl _, ?_, ?_⟩
    · intro address holds
      simp only [Holds, span, region] at holds ⊢
      omega
    · intro other member address holds isIn
      have lies := cache.ordered.inside other member
      simp only [Holds, span] at holds isIn
      omega

theorem append_handedOut
    (bytes : Bytes)
    (node : EventNode)
    (_ : node ∈ cache.nodes)
    (other : EventNode) :
    other ∈ (cache.Append_Node bytes node.address).1.nodes ↔
      other ∈ cache.nodes ∧ other.address ≠ node.address := by
  simp only [Append_Node, NodeStack.append, List.mem_filter,
    decide_eq_true_eq]

theorem append_keeps
    (bytes : Bytes)
    (node : EventNode)
    (_ : node ∈ cache.nodes)
    (other : EventNode)
    (_ : other ∈ cache.nodes)
    (_ : other.address ≠ node.address)
    (address : Nat)
    (_ : Holds (span other) address) :
    (cache.Append_Node bytes node.address).2 address = bytes address := rfl

theorem dataSize (node : EventNode) (member : node ∈ cache.nodes) :
    cache.DataSize node.address = node.blocks := by
  rw [DataSize, cache.ordered.nodeAt_eq member]
  rfl

theorem binaryBlob (node : EventNode) (member : node ∈ cache.nodes) :
    (cache.nodeAt node.address).isSome = true := by
  rw [cache.ordered.nodeAt_eq member]
  rfl

theorem layOut_region (_ : Bytes) (location : Nat) (size : UInt32) :
    (layOut location size).region = ⟨location, size.toNat⟩ := rfl

theorem append_region (bytes : Bytes) (address : Nat) :
    (cache.Append_Node bytes address).1.region = cache.region := rfl

end StackedNodes

/-- Stacked nodes in place of the event cache. -/
def stackedNodes : NodeHeap StackedNodes where
  layOut bytes location size := (StackedNodes.layOut location size, bytes)
  Extract_Node := StackedNodes.Extract_Node
  Append_Node := StackedNodes.Append_Node
  DataSize := StackedNodes.DataSize
  isBinaryBlob cache address := (cache.nodeAt address).isSome
  handedOut cache := cache.nodes
  region := StackedNodes.region
  layOut_region := StackedNodes.layOut_region
  extract_region := StackedNodes.extract_region
  extract_keeps := StackedNodes.extract_keeps
  extract_none := StackedNodes.extract_none
  extract_some := StackedNodes.extract_some
  append_region := StackedNodes.append_region
  append_handedOut := StackedNodes.append_handedOut
  append_keeps := StackedNodes.append_keeps
  dataSize := StackedNodes.dataSize
  binaryBlob := StackedNodes.binaryBlob

/-! ## Runs on it -/

/-- A thousand bytes from address 80 on. -/
def smallHeap : HeapLocation := ⟨80, 1000, by decide, by decide⟩

/-- Nothing has been handed out. -/
def unusedMemory : Use StackedNodes where
  memory :=
    { m_location := 0
      m_size := 0
      s_PreHeapInitIndex := 0
      g_CLR_RT_EventCache := (stackedNodes.layOut (fun _ => 0) 0 0).1
      bytes := fun _ => 0 }
  laidOut := false
  live := []

theorem unusedMemory_start : MemoryStart unusedMemory :=
  ⟨rfl, rfl, rfl, rfl, rfl⟩

/-- The call, where native code may make it. -/
def callNative (use : Use StackedNodes) (call : MemoryCall) :
    Use StackedNodes :=
  (use.next stackedNodes smallHeap call).getD use

/-- Calls that native code may make are a run. -/
theorem run_callNative
    {calls : List MemoryCall}
    (made : (trail callNative unusedMemory calls).all fun entry =>
      (entry.1.next stackedNodes smallHeap entry.2).isSome) :
    Run MemoryStart (MemoryStep stackedNodes smallHeap)
      (trail callNative unusedMemory calls)
      (calls.foldl callNative unusedMemory) := by
  refine (Run.start unusedMemory_start).follow callNative ?_
  intro entry member
  obtain ⟨later, step⟩ :=
    Option.isSome_iff_exists.mp (List.all_eq_true.mp made entry member)
  rw [MemoryStep, callNative, step, Option.getD_some]

/-- A piece before the heap is known, one off its end, and a blob to which one
byte is stored. -/
def callsBeforeMove : List MemoryCall :=
  [.allocate 8, .release 80, .reset, .subtractFromSystem 10, .allocateHeaps,
    .allocate 40, .store 96 7]

end NativeMemory

end NanoClr
