import NanoClr.GarbageCollector.MarkTrace
import NanoClr.GarbageCollector.WeakDelegates

/-!
# What is listed after `Mark`

The list of reachable weak delegate lists is right exactly when no weak delegate
list was visited again.  A rescan does visit them again: it goes over all
objects that are marked.
-/

namespace NanoClr

open HeapBlock HeapCluster

namespace GarbageCollector

/-! ## The list after `Mark` -/

section Claim

variable
  {input : MarkInput}
  {state : MarkState}
  {taken : List (MarkState × CollectEvent)}

/-- The list of weak delegate lists that were reached. -/
def WeakDelegatesListed (input : MarkInput) (memory : Memory) : Prop :=
  ∃ nodes, Linked (next memory) (prev memory)
      (head input.weakDelegatesReachable :: nodes ++
        [tail input.weakDelegatesReachable]) ∧
    prev memory (head input.weakDelegatesReachable) = 0 ∧
    next memory (tail input.weakDelegatesReachable) = 0 ∧
    nodes.Nodup ∧
    ∀ block, block ∈ nodes ↔
      Reached input block ∧ isWeakDelegateList input.memory block = true

/-- A list with a cycle is not the list of what was reached. -/
theorem WeakCycle.not_listed
    (graph : GraphWellFormed input)
    {memory : Memory}
    (cycle : WeakCycle input memory) :
    ¬ WeakDelegatesListed input memory := by
  rintro ⟨listed, linked, _⟩
  obtain ⟨nodes, last, back⟩ := cycle
  have nonzero := graph.sentinel
  have all := linked.backwards_concat_induction
    (fun node => node = tail input.weakDelegatesReachable ∨ nodes node) _
    (fun left right edge inside => by
      right
      rcases inside with rfl | isNode
      · rw [← edge.2]
        exact last
      · rw [← edge.2]
        exact (back right isNode).2.2)
    (.inl rfl) (head input.weakDelegatesReachable) List.mem_cons_self
  rcases all with isTail | isNode
  · rw [head, tail] at isTail
    omega
  · have := graph.sentinelApart _ (back _ isNode).1
    have := headerWords_bounds input.memory (head input.weakDelegatesReachable)
    rw [head] at this
    rw [head] at *
    omega

/-- After `Mark` the list holds the weak delegate lists that are reached, each
once, exactly when none of them was visited again. -/
theorem weakDelegatesReachable_listed
    (graph : GraphWellFormed input)
    (noStaleMarks : NoStaleMarks input)
    (run : CollectRun input taken state)
    (finished : state.phase = .finished)
    (room : ∀ entry ∈ taken, StepFindsRoom entry.1 entry.2) :
    WeakDelegatesListed input state.collector.memory ↔
      ∀ entry ∈ taken, StepVisitsOnce entry.1 entry.2 := by
  obtain ⟨visited, handed, holds, list⟩ := run.weakDelegates graph room
  rcases list with ⟨once, nodes, chain⟩ | ⟨again, cycle⟩
  · refine iff_of_true ?_ once
    refine ⟨nodes, chain.linked, chain.first, chain.last, chain.nodup, ?_⟩
    intro block
    rw [chain.members]
    constructor
    · rintro ⟨isVisited, isWeak⟩
      exact ⟨holds.scanned.visitedReached block isVisited, isWeak⟩
    · rintro ⟨reached, isWeak⟩
      rcases holds.complete noStaleMarks finished reached with
        isVisited | ⟨_, leaf⟩
      · exact ⟨isVisited, isWeak⟩
      · rw [leaf.2.2] at isWeak
        cases isWeak
  · exact iff_of_false (cycle.not_listed graph) again

end Claim

/-! ## A weak delegate list and a deep list of objects -/

namespace DeepRescan

/-- The head of the list of weak lists. -/
def sentinel : Nat := 0x10

/-- The first root. -/
def slots : Nat := 0x100

/-- The cluster of the heap. -/
def cluster : Nat := 0x1000

/-- The weak list, the first block of the cluster. -/
def weak : Nat := 0x1008

/-- The address of an object of the chain behind the weak list. -/
def node (index : Nat) : Nat := 0x100E + 9 * index

/-- The words of a node: an object with a reference to the next node and a
number. -/
def word (length index : Nat) : Nat → Nat
  | 0 => rawId DataType.classType.code 0 3
  | 3 => rawId DataType.object.code 0 1
  | 4 => if index + 1 < length then node (index + 1) else 0
  | 6 => rawId DataType.i4.code 0 1
  | _ => 0

/-- The words before the nodes: the roots, the cluster, and the weak list. -/
def wordBefore (length address : Nat) : Nat :=
  if address = slots ∨ address = slots + 3 then rawId DataType.object.code 0 1
  else if address = slots + 1 then weak
  else if address = slots + 4 then if 0 < length then node 0 else 0
  else if address = cluster + 6 then weak
  else if address = cluster + 7 then node length
  else if address = weak then rawId DataType.delegateListHead.code 0 2
  else if address = weak + 5 then HeapBlockDelegateList.c_Weak
  else 0

/-- The memory: a weak list, and a chain of objects of some length. -/
def memory (length address : Nat) : Nat :=
  if address < node 0 then wordBefore length address
  else if (address - node 0) / 9 < length then
    word length ((address - node 0) / 9) ((address - node 0) % 9)
  else 0

/-- Two roots refer to a weak delegate list and to the first of a number of
objects that are linked. -/
def input (length : Nat) : MarkInput :=
  { memory := memory length
    clusters := [cluster]
    roots := [.multiple slots 2]
    finalizersAlive := []
    weakDelegatesReachable := sentinel }

section Words

variable {length : Nat}

theorem memory_before {address : Nat} (before : address < node 0) :
    memory length address = wordBefore length address :=
  if_pos before

theorem memory_node
    {index : Nat}
    (inList : index < length)
    (offset : Nat)
    (inNode : offset < 9) :
    memory length (node index + offset) = word length index offset := by
  have relative : node index + offset - node 0 = 9 * index + offset := by
    simp only [node]
    omega
  have quotient : (9 * index + offset) / 9 = index := by omega
  have remainder : (9 * index + offset) % 9 = offset := by omega
  have notBefore : ¬ node index + offset < node 0 := by
    simp only [node]
    omega
  rw [memory, if_neg notBefore, relative, quotient, remainder, if_pos inList]

/-- The blocks that the roots lead to. -/
inductive Known (length : Nat) : Nat → Prop
  | weakSlot : Known length slots
  | nodeSlot : Known length (slots + 3)
  | weak : Known length weak
  | node {index : Nat} (inList : index < length) : Known length (node index)
  | reference {index : Nat} (inList : index < length) :
      Known length (node index + 3)
  | number {index : Nat} (inList : index < length) :
      Known length (node index + 6)

/-- Blocks by their identity words. -/
theorem shape_of_id
    {memory : Memory}
    {block : Nat}
    {type : DataType}
    {size : Nat}
    (identity : memory block = rawId type.code 0 size)
    (small : size < 0x10000) :
    dataType memory block = some type ∧ dataSize memory block = size ∧
      isAlive memory block = false ∧ isEvent memory block = false := by
  refine ⟨?_, ?_, ?_, ?_⟩
  · rw [dataType, dataTypeCode, identity, rawId_dataType,
      Nat.mod_eq_of_lt type.code_lt, DataType.ofCode_code]
  · rw [dataSize, identity, rawId_size, Nat.mod_eq_of_lt small]
  · rw [isAlive, isFlagSet, dataFlags, identity, rawId_flags]
    rfl
  · rw [isEvent, isFlagSet, dataFlags, identity, rawId_flags]
    rfl

/-- A reference refers to its target and owns nothing. -/
theorem object_shape
    {memory : Memory}
    {block : Nat}
    (isObject : dataType memory block = some .object) :
    target memory block = memory (block + 1) ∧
      fieldRange memory block = (0, 0) ∧
      isWeakDelegateList memory block = false ∧
      headerWords memory block = 3 := by
  simp [target, fieldRange, isWeakDelegateList, headerWords, isObject,
    dereference]

/-- The shapes of the blocks that are known. -/
structure Shape
    (length block : Nat)
    (refersTo size rangeLength words : Nat)
    (isWeak : Bool) : Prop where
  target : target (memory length) block = refersTo
  range : fieldRange (memory length) block =
    if rangeLength = 0 then (0, 0) else (block + 3, rangeLength)
  weak : isWeakDelegateList (memory length) block = isWeak
  words : headerWords (memory length) block = words
  size : dataSize (memory length) block = size
  dead : isAlive (memory length) block = false
  notEvent : isEvent (memory length) block = false
  used : isFree (memory length) block = false

theorem shape_object
    {block refersTo : Nat}
    (identity : memory length block = rawId DataType.object.code 0 1)
    (reference : memory length (block + 1) = refersTo) :
    Shape length block refersTo 1 0 3 false := by
  obtain ⟨type, size, dead, notEvent⟩ := shape_of_id identity (by decide)
  obtain ⟨targetIs, range, weak, words⟩ := object_shape type
  exact ⟨targetIs.trans reference, range, weak, words, size, dead, notEvent,
    by simp [isFree, type]⟩

theorem shape_weakSlot : Shape length slots weak 1 0 3 false :=
  shape_object (memory_before (by decide)) (memory_before (by decide))

theorem shape_nodeSlot :
    Shape length (slots + 3) (if 0 < length then node 0 else 0) 1 0 3 false :=
  shape_object (memory_before (by decide)) (memory_before (by decide))

theorem shape_weak : Shape length weak 0 2 0 6 true := by
  have identity : memory length weak =
      rawId DataType.delegateListHead.code 0 2 :=
    memory_before (by decide)
  have flags : HeapBlockDelegateList.isWeak (memory length) weak = true := by
    have word : memory length (weak + 5) = HeapBlockDelegateList.c_Weak :=
      memory_before (by decide)
    rw [HeapBlockDelegateList.isWeak, HeapBlockDelegateList.flags, word]
    rfl
  obtain ⟨type, size, dead, notEvent⟩ := shape_of_id identity (by decide)
  exact ⟨by simp [target, type], by simp [fieldRange, type, flags],
    by simp [isWeakDelegateList, type, flags], by simp [headerWords, type],
    size, dead, notEvent, by simp [isFree, type]⟩

section Nodes

variable {index : Nat} (inList : index < length)

include inList

theorem shape_node : Shape length (node index) 0 3 2 3 false := by
  have identity : memory length (node index) =
      rawId DataType.classType.code 0 3 :=
    memory_node inList 0 (by decide)
  obtain ⟨type, size, dead, notEvent⟩ := shape_of_id identity (by decide)
  exact ⟨by simp [target, type], by simp [fieldRange, type, size],
    by simp [isWeakDelegateList, type], by simp [headerWords, type],
    size, dead, notEvent, by simp [isFree, type]⟩

theorem shape_reference :
    Shape length (node index + 3)
      (if index + 1 < length then node (index + 1) else 0) 1 0 3 false :=
  shape_object (memory_node inList 3 (by decide))
    (memory_node inList 4 (by decide))

theorem shape_number : Shape length (node index + 6) 0 1 0 3 false := by
  have identity : memory length (node index + 6) =
      rawId DataType.i4.code 0 1 :=
    memory_node inList 6 (by decide)
  obtain ⟨type, size, dead, notEvent⟩ := shape_of_id identity (by decide)
  exact ⟨by simp [target, type], by simp [fieldRange, type],
    by simp [isWeakDelegateList, type], by simp [headerWords, type],
    size, dead, notEvent, by simp [isFree, type]⟩

end Nodes

/-- What is reached is known. -/
theorem known_of_reached
    {block : Nat}
    (reached : Reached (input length) block) :
    Known length block := by
  have chain {index : Nat}
      (nonzero : (if index < length then node index else 0) ≠ 0) :
      Known length (if index < length then node index else 0) := by
    by_cases inList : index < length
    · rw [if_pos inList]
      exact .node inList
    · exact absurd (if_neg inList) nonzero
  have noField {block other refersTo size words : Nat} {isWeak : Bool}
      (shape : Shape length block refersTo size 0 words isWeak) :
      ¬ IsField (memory length) block other := by
    rintro ⟨_, bound, _⟩
    rw [shape.range] at bound
    exact absurd bound (Nat.not_lt_zero _)
  induction reached with
  | entry isEntry =>
      rcases isEntry.2 with isRoot | isFinalizer
      · simp [input] at isRoot
      · cases isFinalizer
  | slot isSlot =>
      obtain ⟨lst, num, isRoot, _, index, bound, rfl⟩ := isSlot
      obtain ⟨rfl, rfl⟩ : lst = slots ∧ num = 2 := by
        simpa [input] using isRoot
      match index, bound with
      | 0, _ => exact .weakSlot
      | 1, _ => exact .nodeSlot
  | field _ isField inductionHypothesis =>
      cases inductionHypothesis with
      | weakSlot => exact absurd isField (noField shape_weakSlot)
      | nodeSlot => exact absurd isField (noField shape_nodeSlot)
      | weak => exact absurd isField (noField shape_weak)
      | reference inList =>
          exact absurd isField (noField (shape_reference inList))
      | number inList => exact absurd isField (noField (shape_number inList))
      | node inList =>
          obtain ⟨field, bound, rfl⟩ := isField
          have range := (shape_node inList).range
          rw [if_neg (by decide)] at range
          simp only [input, range] at bound ⊢
          match field, bound with
          | 0, _ => exact .reference inList
          | 1, _ => exact .number inList
  | target _ nonzero inductionHypothesis =>
      cases inductionHypothesis with
      | weakSlot =>
          rw [show target (input length).memory slots = weak from
            shape_weakSlot.target]
          exact .weak
      | nodeSlot =>
          have isTarget : target (input length).memory (slots + 3) = _ :=
            shape_nodeSlot.target
          rw [isTarget] at nonzero ⊢
          exact chain nonzero
      | weak => exact absurd shape_weak.target nonzero
      | node inList => exact absurd (shape_node inList).target nonzero
      | number inList => exact absurd (shape_number inList).target nonzero
      | reference inList =>
          have isTarget : target (input length).memory _ = _ :=
            (shape_reference inList).target
          rw [isTarget] at nonzero ⊢
          exact chain nonzero

/-- The nodes tile the end of the payload. -/
theorem nodes_tiling
    {count : Nat}
    (bound : count ≤ length) :
    HeapTiling (memory length) (node count) (node 0)
      ((List.range count).map node) := by
  induction count with
  | zero => rfl
  | succ count inductionHypothesis =>
      have inList : count < length := bound
      have size := (shape_node inList).size
      rw [List.range_succ, List.map_append]
      refine Tiling.append_iff.mpr
        ⟨node count, inductionHypothesis (Nat.le_of_succ_le bound), rfl, ?_, ?_⟩
      · rw [HeapBlock.words, size]
        decide
      · rw [HeapBlock.words, size]
        exact show node count + 9 = node (count + 1) by
          simp only [node]
          omega

/-- The blocks of the cluster. -/
def blocks (length : Nat) : List Nat := weak :: (List.range length).map node

theorem mem_blocks {block : Nat} :
    block ∈ blocks length ↔
      block = weak ∨ ∃ index < length, block = node index := by
  simp [blocks, eq_comm]

theorem payload_bounds (length : Nat) :
    payloadStart (memory length) cluster = weak ∧
      payloadEnd (memory length) cluster = node length :=
  ⟨memory_before (by decide), memory_before (by decide)⟩

theorem cluster_laid (bound : length ≤ 128) :
    Laid (memory length) cluster (blocks length) := by
  obtain ⟨start, stop⟩ := payload_bounds length
  refine ⟨start, ?_, ?_, ?_⟩
  · rw [stop]
    simp only [node, cluster, HB_MaxSize]
    omega
  · rw [stop]
    refine ⟨rfl, ?_, ?_⟩
    · rw [HeapBlock.words, shape_weak.size]
      decide
    · rw [HeapBlock.words, shape_weak.size]
      exact nodes_tiling (Nat.le_refl length)
  · intro block free
    obtain ⟨member, isFree⟩ := mem_freeOf.mp free
    rcases mem_blocks.mp member with rfl | ⟨index, inList, rfl⟩
    · rw [shape_weak.used] at isFree
      cases isFree
    · rw [(shape_node inList).used] at isFree
      cases isFree

/-- The objects are the weak list and the nodes. -/
theorem isObject_iff (bound : length ≤ 128) {block : Nat} :
    IsObject (input length).heap block ↔ block ∈ blocks length := by
  have laid := cluster_laid bound
  constructor
  · rintro ⟨_, owner, member, allocated⟩
    rw [List.mem_singleton.mp member] at allocated
    exact (laid.allocated_iff.mp allocated).1
  · intro member
    have shape : isEvent (memory length) block = false ∧
        isFree (memory length) block = false := by
      rcases mem_blocks.mp member with rfl | ⟨index, inList, rfl⟩
      · exact ⟨shape_weak.notEvent, shape_weak.used⟩
      · exact ⟨(shape_node inList).notEvent, (shape_node inList).used⟩
    exact ⟨shape.1, cluster, List.mem_singleton.mpr rfl,
      laid.allocated_iff.mpr ⟨member, shape.2⟩⟩

/-- Where a known block lies, and how many of its words are read. -/
theorem Known.place {block : Nat} (known : Known length block) :
    isAlive (memory length) block = false ∧
    ((block = slots ∨ block = slots + 3) ∧
        headerWords (memory length) block = 3 ∨
      block = DeepRescan.weak ∧ headerWords (memory length) block = 6 ∨
      headerWords (memory length) block = 3 ∧
        ∃ index < length, ∃ field < 3,
          block = DeepRescan.node index + 3 * field) := by
  cases known with
  | weakSlot =>
      exact ⟨shape_weakSlot.dead, .inl ⟨.inl rfl, shape_weakSlot.words⟩⟩
  | nodeSlot =>
      exact ⟨shape_nodeSlot.dead, .inl ⟨.inr rfl, shape_nodeSlot.words⟩⟩
  | weak => exact ⟨shape_weak.dead, .inr (.inl ⟨rfl, shape_weak.words⟩)⟩
  | node inList =>
      have shape := shape_node inList
      exact ⟨shape.dead, .inr (.inr ⟨shape.words, _, inList, 0, by decide, rfl⟩)⟩
  | reference inList =>
      have shape := shape_reference inList
      exact ⟨shape.dead, .inr (.inr ⟨shape.words, _, inList, 1, by decide, rfl⟩)⟩
  | number inList =>
      have shape := shape_number inList
      exact ⟨shape.dead, .inr (.inr ⟨shape.words, _, inList, 2, by decide, rfl⟩)⟩

theorem graphWellFormed (bound : length ≤ 128) :
    GraphWellFormed (input length) := by
  have laid := cluster_laid bound
  have place {block : Nat} (reached : Reached (input length) block) :=
    (known_of_reached reached).place
  refine {
    laid := ⟨?_, List.pairwise_singleton _ _⟩
    unmarked := ?_
    inUse := ?_
    apart := ?_
    owners := ?_
    sentinel := nofun
    sentinelOutside := ?_
    sentinelApart := ?_ }
  · intro owner member
    rw [List.mem_singleton.mp member]
    exact ⟨_, laid⟩
  · intro block isObject
    rcases mem_blocks.mp ((isObject_iff bound).mp isObject) with
      rfl | ⟨index, inList, rfl⟩
    · exact shape_weak.dead
    · exact (shape_node inList).dead
  · intro block reached offset inBlock
    have inCluster {owner : Nat} (member : owner ∈ blocks length)
        (used : isFree (memory length) owner = false)
        (lower : owner ≤ block + offset)
        (upper : block + offset < owner + HeapBlock.words (memory length) owner) :
        InUse (input length).heap (block + offset) :=
      .inr ⟨cluster, List.mem_singleton.mpr rfl, owner,
        laid.allocated_iff.mpr ⟨member, used⟩, lower, upper⟩
    simp only [input] at inBlock
    rcases (place reached).2 with
      ⟨isSlot, words⟩ | ⟨rfl, words⟩ | ⟨words, index, inList, field, small, rfl⟩
    · left
      intro owner member
      rw [List.mem_singleton.mp member]
      left
      simp only [slots, cluster] at isSlot ⊢
      omega
    · apply inCluster List.mem_cons_self shape_weak.used (by omega)
      rw [HeapBlock.words, shape_weak.size]
      omega
    · apply inCluster (mem_blocks.mpr (.inr ⟨index, inList, rfl⟩))
        (shape_node inList).used (by omega)
      rw [HeapBlock.words, (shape_node inList).size]
      omega
  · intro block other reached reachedOther different
    have one := (place reached).2
    have two := (place reachedOther).2
    simp only [input, node, slots, weak] at one two ⊢
    rcases one with ⟨_, words⟩ | ⟨rfl, words⟩ | ⟨words, index, _, field, _, rfl⟩ <;>
      rcases two with ⟨_, _⟩ | ⟨rfl, _⟩ | ⟨_, index', _, field', _, rfl⟩ <;>
      rw [words] <;> omega
  · intro block reached owns
    have isObject : block = weak ∨ ∃ index < length, block = node index := by
      cases known_of_reached reached with
      | weak => exact .inl rfl
      | node inList => exact .inr ⟨_, inList, rfl⟩
      | weakSlot =>
          exfalso
          simp [input, shape_weakSlot.range, shape_weakSlot.weak] at owns
      | nodeSlot =>
          exfalso
          simp [input, shape_nodeSlot.range, shape_nodeSlot.weak] at owns
      | reference inList =>
          exfalso
          simp [input, (shape_reference inList).range,
            (shape_reference inList).weak] at owns
      | number inList =>
          exfalso
          simp [input, (shape_number inList).range,
            (shape_number inList).weak] at owns
    exact (isObject_iff bound).mpr (mem_blocks.mpr isObject)
  · intro owner member offset small
    rw [List.mem_singleton.mp member]
    left
    simp only [input, sentinel, cluster]
    omega
  · intro block reached
    left
    have one := (place reached).2
    simp only [input, sentinel, node, slots, weak] at one ⊢
    omega

/-- No block is marked before the collection. -/
theorem noStaleMarks : NoStaleMarks (input length) := by
  refine ⟨?_, ?_⟩
  · rintro block ⟨_, isRoot | isFinalizer⟩
    · simp [input] at isRoot
    · cases isFinalizer
  · intro block reached nonzero
    exact .inl (known_of_reached (reached.target nonzero)).place.1

/-- What is known is reached. -/
theorem Known.reached {block : Nat} (known : Known length block) :
    Reached (input length) block := by
  have slot (index : Nat) (bound : index < 2) :
      Reached (input length) (slots + 3 * index) :=
    .slot ⟨slots, 2, List.mem_singleton.mpr rfl, by decide, index, bound, rfl⟩
  have follow {source : Nat} {refersTo size rangeLength words : Nat}
      {isWeak : Bool}
      (reached : Reached (input length) source)
      (shape : Shape length source refersTo size rangeLength words isWeak)
      (nonzero : refersTo ≠ 0) : Reached (input length) refersTo := by
    rw [← shape.target] at nonzero ⊢
    exact .target reached nonzero
  have field {index : Nat} (inList : index < length) (offset : Nat)
      (bound : offset < 2)
      (reached : Reached (input length) (DeepRescan.node index)) :
      Reached (input length) (DeepRescan.node index + 3 + 3 * offset) := by
    have range := (shape_node inList).range
    rw [if_neg (by decide)] at range
    refine .field reached ⟨offset, ?_, ?_⟩ <;> simp only [input, range]
    exact bound
  have ofNode {index : Nat} (inList : index < length) :
      Reached (input length) (DeepRescan.node index) := by
    induction index with
    | zero =>
        have shape : Shape length _ _ _ _ _ _ := shape_nodeSlot
        rw [if_pos inList] at shape
        exact follow (slot 1 (by decide)) shape (by decide)
    | succ index inductionHypothesis =>
        have earlier := Nat.lt_of_succ_lt inList
        have shape := shape_reference earlier
        rw [if_pos inList] at shape
        refine follow (field earlier 0 (by decide)
          (inductionHypothesis earlier)) shape ?_
        simp only [DeepRescan.node]
        omega
  cases known with
  | weakSlot => exact slot 0 (by decide)
  | nodeSlot => exact slot 1 (by decide)
  | weak =>
      exact follow (slot 0 (by decide)) shape_weakSlot (by decide)
  | node inList => exact ofNode inList
  | reference inList => exact field inList 0 (by decide) (ofNode inList)
  | number inList => exact field inList 1 (by decide) (ofNode inList)

end Words

/-! ## A run on this heap -/

section Run

variable {length : Nat}

/-- The state in which the collection starts. -/
def start (length : Nat) : MarkState :=
  { collector :=
      { memory := dblLinkedListInitialize (memory length) sentinel
        lists := fun _ => markStackInitialize
          { elements := fun _ => ⟨0, 0⟩, size := 0, last := ⟨0, 0⟩,
            top := ⟨0, 0⟩ } 0 c_minimumSpaceForGC
        listCount := 1
        markStack := 0
        outOfStackSpaceForGC := false
        weakDelegatesReachable := sentinel }
    scan := none
    phase := .roots [.multiple slots 2]
    finalizersPending := [] }

theorem start_starts (length : Nat) :
    CollectStart (input length) (start length) :=
  ⟨rfl, rfl, rfl, ⟨_, rfl⟩, rfl, rfl, rfl, rfl, rfl⟩

theorem start_resting (bound : length ≤ 128) :
    Resting (input length) (fun _ => False) (.roots [.multiple slots 2]) false
      (start length) := by
  have holds := (start_starts length).invariant (graphWellFormed bound)
  exact ⟨holds.marked_memory, rfl, ⟨rfl, rfl⟩, rfl, holds.lists, rfl, rfl⟩

/-- A block that refers to nothing leaves nothing to be scanned. -/
theorem leaves_nothing
    {block size words : Nat}
    {isWeak : Bool}
    {visited : Nat → Prop}
    (shape : Shape length block 0 size 0 words isWeak) :
    LeavesRange (input length) visited block 0 0 :=
  .inr ⟨fun nonzero => absurd shape.target nonzero, shape.range.symm⟩

/-- The nodes up to a count were visited, and the weak list. -/
def VisitedUpTo (length count : Nat) (visited : Nat → Prop) : Prop :=
  visited weak ∧
    ∀ index < length, visited (node index) ↔ index < count

/-- Visiting a node. -/
theorem VisitedUpTo.node
    {count : Nat}
    {visited : Nat → Prop}
    (upTo : VisitedUpTo length count visited) :
    VisitedUpTo length (count + 1)
      (fun other => visited other ∨ other = DeepRescan.node count) := by
  refine ⟨.inl upTo.1, ?_⟩
  intro index inList
  have same : DeepRescan.node index = DeepRescan.node count ↔
      index = count := by
    simp only [DeepRescan.node]
    omega
  simp only [upTo.2 index inList, same]
  omega

/-- Visiting anything else. -/
theorem VisitedUpTo.other
    {count : Nat}
    {visited : Nat → Prop}
    (upTo : VisitedUpTo length count visited)
    (block : Nat)
    (notNode : ∀ index, DeepRescan.node index ≠ block) :
    VisitedUpTo length count (fun other => visited other ∨ other = block) := by
  refine ⟨.inl upTo.1, ?_⟩
  intro index inList
  rw [← upTo.2 index inList]
  exact or_iff_left (notNode index)

/-- Once all nodes were visited they stay so. -/
theorem VisitedUpTo.all
    {visited : Nat → Prop}
    (upTo : VisitedUpTo length length visited)
    (block : Nat) :
    VisitedUpTo length length (fun other => visited other ∨ other = block) :=
  ⟨.inl upTo.1, fun index inList =>
    iff_of_true (.inl ((upTo.2 index inList).mpr inList)) inList⟩

/-- The weak list and the roots are visited; the first node comes next. -/
theorem run_roots (bound : length ≤ 128) :
    ∃ visited later, LeadsTo (input length) (start length) later ∧
      VisitedUpTo length 0 visited ∧
      Traced (input length) visited (.roots []) false
        (if 0 < length then node 0 else 0) (if 0 < length then 1 else 0) []
        later := by
  have graph := graphWellFormed bound
  obtain ⟨first, toFirst, traced⟩ :=
    (start_resting bound).enter slots 2 rfl
  have leavesWeak : LeavesRange (input length)
      (fun other => False ∨ other = slots) slots weak 1 := by
    left
    rw [show target (input length).memory slots = weak from
      shape_weakSlot.target]
    exact ⟨by decide, shape_weak.dead, by decide, rfl, rfl⟩
  obtain ⟨second, _, _, toSecond, traced⟩ :=
    traced.visit graph rfl (Known.reached .weakSlot) leavesWeak
  obtain ⟨third, _, _, toThird, traced⟩ :=
    traced.visit graph rfl (Known.reached .weak) (leaves_nothing shape_weak)
  have upTo : VisitedUpTo length 0
      (fun other => (False ∨ other = slots) ∨ other = weak) := by
    refine ⟨.inr rfl, ?_⟩
    intro index inList
    apply iff_of_false _ (Nat.not_lt_zero index)
    simp only [node, slots, weak, false_or]
    omega
  have upTo' := upTo.other (slots + 3) fun index => by
    simp only [node, slots]
    omega
  have leaves : LeavesRange (input length)
      (fun other => ((False ∨ other = slots) ∨ other = weak) ∨
        other = slots + 3) (slots + 3)
      (if 0 < length then node 0 else 0) (if 0 < length then 1 else 0) := by
    have targetIs : target (input length).memory (slots + 3) = _ :=
      shape_nodeSlot.target
    by_cases nonempty : 0 < length
    · rw [if_pos nonempty] at targetIs
      rw [if_pos nonempty, if_pos nonempty]
      left
      rw [targetIs]
      refine ⟨by decide, (shape_node nonempty).dead, ?_, rfl, rfl⟩
      rw [upTo'.2 0 nonempty]
      exact Nat.lt_irrefl 0
    · rw [if_neg nonempty] at targetIs
      rw [if_neg nonempty, if_neg nonempty]
      exact .inr ⟨fun nonzero => absurd targetIs nonzero,
        shape_nodeSlot.range.symm⟩
  obtain ⟨fourth, _, _, toFourth, traced⟩ :=
    traced.visit graph rfl (Known.reached .nodeSlot) leaves
  exact ⟨_, fourth, toFirst.trans (toSecond.trans (toThird.trans toFourth)),
    upTo', traced⟩

/-- The numbers of some nodes wait on the stack. -/
def NumbersWait (length : Nat) (stack : List MarkStackElement) : Prop :=
  ∀ range ∈ stack, ∃ index < length, range = ⟨node index + 6, 1⟩

/-- Going from a node to the next one. -/
theorem run_node
    (bound : length ≤ 128)
    {count : Nat}
    (nextInList : count + 1 < length)
    {visited : Nat → Prop}
    (upTo : VisitedUpTo length count visited)
    {stack : List MarkStackElement}
    (room : stack.length < 127)
    {state : MarkState}
    (traced : Traced (input length) visited (.roots []) false (node count) 1
      stack state) :
    ∃ visited' later, LeadsTo (input length) state later ∧
      VisitedUpTo length (count + 1) visited' ∧
      Traced (input length) visited' (.roots []) false (node (count + 1)) 1
        (⟨node count + 6, 1⟩ :: stack) later := by
  have graph := graphWellFormed bound
  have inList : count < length := Nat.lt_of_succ_lt nextInList
  have shape := shape_node inList
  obtain ⟨first, _, _, toFirst, traced⟩ :=
    traced.visit graph rfl (Known.reached (.node inList))
      (.inr ⟨fun nonzero => absurd shape.target nonzero, shape.range.symm⟩)
  have upTo' := upTo.node.other (node count + 3) fun index => by
    simp only [node]
    omega
  have targetIs : target (input length).memory (node count + 3) =
      node (count + 1) := by
    have isTarget := (shape_reference inList).target
    rw [if_pos nextInList] at isTarget
    exact isTarget
  have takes : nextTaken (node count + 3) 2 (rangeOf (node count + 3) 0 ++ stack) =
      some (node count + 3, ⟨node count + 6, 1⟩ :: stack) := by
    have notFull : ¬ (1 < 2 ∧ c_minimumSpaceForGC - 1 ≤ stack.length) := by
      rintro ⟨_, full⟩
      exact absurd full (Nat.not_le_of_lt room)
    rw [nextTaken, if_neg (by decide), rangeOf_zero, List.nil_append,
      if_neg notFull]
    rfl
  obtain ⟨second, _, _, toSecond, traced⟩ :=
    traced.visit graph takes (Known.reached (.reference inList)) (.inl ⟨by
      rw [targetIs, node]
      omega, by
      rw [targetIs]
      exact (shape_node nextInList).dead, by
      rw [targetIs, upTo'.2 _ nextInList]
      exact Nat.lt_irrefl _, targetIs.symm, rfl⟩)
  exact ⟨_, second, toFirst.trans toSecond, upTo', traced⟩

/-- The stack fills up node by node. -/
theorem run_nodes
    (bound : length ≤ 128)
    {count : Nat}
    (inList : count < length) :
    ∃ visited stack later, LeadsTo (input length) (start length) later ∧
      VisitedUpTo length count visited ∧
      stack.length = count ∧ NumbersWait length stack ∧
      Traced (input length) visited (.roots []) false (node count) 1 stack
        later := by
  induction count with
  | zero =>
      obtain ⟨visited, later, toLater, upTo, traced⟩ := run_roots bound
      rw [if_pos inList, if_pos inList] at traced
      exact ⟨visited, [], later, toLater, upTo, rfl, nofun, traced⟩
  | succ count inductionHypothesis =>
      have earlier := Nat.lt_of_succ_lt inList
      obtain ⟨visited, stack, state, toState, upTo, lengthIs, numbers, traced⟩ :=
        inductionHypothesis earlier
      obtain ⟨visited', later, toLater, upTo', traced'⟩ :=
        run_node bound inList upTo (by omega) traced
      refine ⟨visited', _, later, toState.trans toLater, upTo', ?_, ?_, traced'⟩
      · rw [List.length_cons, lengthIs]
      · intro range member
        rcases List.mem_cons.mp member with rfl | isOld
        · exact ⟨count, earlier, rfl⟩
        · exact numbers range isOld

/-- The numbers that wait are visited, and the scan ends. -/
theorem run_numbers
    (bound : length ≤ 128)
    {count : Nat}
    {phase : Phase}
    {dropped : Bool}
    {stack : List MarkStackElement}
    (numbers : NumbersWait length stack)
    {visited : Nat → Prop}
    (upTo : VisitedUpTo length count visited)
    {state : MarkState}
    (traced : Traced (input length) visited phase dropped 0 0 stack state) :
    ∃ visited' later, LeadsTo (input length) state later ∧
      VisitedUpTo length count visited' ∧
      Resting (input length) visited' phase dropped later := by
  induction stack generalizing visited state with
  | nil =>
      obtain ⟨later, toLater, resting⟩ := traced.finish
      exact ⟨visited, later, toLater, upTo, resting⟩
  | cons range rest inductionHypothesis =>
      obtain ⟨index, inList, rfl⟩ := numbers range List.mem_cons_self
      obtain ⟨middle, _, _, toMiddle, traced⟩ :=
        traced.visit (graphWellFormed bound) rfl
          (Known.reached (.number inList)) (leaves_nothing (shape_number inList))
      have upTo' := upTo.other (node index + 6) fun index => by
        simp only [node]
        omega
      obtain ⟨visited', later, toLater, upTo'', resting⟩ :=
        inductionHypothesis
          (fun range member => numbers range (List.mem_cons_of_mem _ member))
          upTo' traced
      exact ⟨visited', later, toMiddle.trans toLater, upTo'', resting⟩

/-- The range that finds no room is dropped, and a rescan starts. -/
theorem run_dropped :
    ∃ visited later, LeadsTo (input 128) (start 128) later ∧
      VisitedUpTo 128 128 visited ∧
      Resting (input 128) visited (.walk false [cluster] weak) false later := by
  have bound : 128 ≤ 128 := Nat.le_refl 128
  have inList : 127 < 128 := by decide
  have shape := shape_node inList
  obtain ⟨visited, stack, first, toFirst, upTo, lengthIs, numbers, traced⟩ :=
    run_nodes bound inList
  obtain ⟨second, _, _, toSecond, traced⟩ :=
    traced.visit (graphWellFormed bound) rfl (Known.reached (.node inList))
      (.inr ⟨fun nonzero => absurd shape.target nonzero, shape.range.symm⟩)
  obtain ⟨third, toThird, traced⟩ := traced.drop (by decide) (by
    rw [rangeOf_zero, List.nil_append, lengthIs]
    decide)
  rw [rangeOf_zero, List.nil_append] at traced
  obtain ⟨visited', fourth, toFourth, upTo', resting⟩ :=
    run_numbers bound numbers upTo.node traced
  have tests : control (input 128) fourth =
      some { fourth with phase := .test false } := by
    unfold control
    simp only [resting.place]
  obtain ⟨fifth, toFifth, resting⟩ := resting.go tests
  have startIs : payloadStart fifth.collector.memory cluster = weak :=
    (resting.marked.bounds cluster (List.mem_singleton.mpr rfl)).1.trans
      (payload_bounds 128).1
  have rescans : control (input 128) fifth = some { fifth with
      collector := { fifth.collector with outOfStackSpaceForGC := false }
      phase := .walk false [cluster] weak } := by
    unfold control
    simp only [resting.place, resting.space, if_true, input, startWalk, startIs]
  obtain ⟨sixth, toSixth, resting⟩ := resting.move rescans
  exact ⟨visited', sixth, toFirst.trans (toSecond.trans (toThird.trans
    (toFourth.trans (toFifth.trans toSixth)))), upTo', resting⟩

/-- A rescan scans a block that was visited. -/
theorem run_walk
    (bound : length ≤ 128)
    {visited : Nat → Prop}
    {block : Nat}
    (member : block ∈ blocks length)
    (known : Known length block)
    (isVisited : visited block)
    {state : MarkState}
    (resting : Resting (input length) visited (.walk false [cluster] block)
      false state) :
    ∃ later, LeadsTo (input length) state later ∧
      Traced (input length) visited (.advance false [cluster] block) false
        block 1 [] later := by
  have laid := cluster_laid bound
  have isCluster : cluster ∈ (input length).clusters :=
    List.mem_singleton.mpr rfl
  have place := laid.place member
  have inside : block < payloadEnd state.collector.memory cluster := by
    rw [(resting.marked.bounds cluster isCluster).2]
    simp only [input]
    omega
  have alive : isAlive state.collector.memory block = true :=
    (resting.marked.alive block known.reached).mpr (.inr isVisited)
  obtain ⟨notEvent, owner, ownerMember, allocated⟩ :=
    (isObject_iff bound).mpr member
  have stays := ((resting.marked.objects owner ownerMember block).mpr
    ⟨allocated, notEvent⟩).2
  have nonzero : block ≠ 0 := by omega
  apply resting.enter block 1
  unfold control
  simp only [resting.place, inside, alive, stays, checkMultipleBlocks, nonzero,
    if_true, if_false, and_self]
  rfl

/-- A rescan goes on behind a block. -/
theorem run_advance
    {visited : Nat → Prop}
    {block refersTo size rangeLength words : Nat}
    {isWeak : Bool}
    (shape : Shape length block refersTo size rangeLength words isWeak)
    (known : Known length block)
    {state : MarkState}
    (resting : Resting (input length) visited (.advance false [cluster] block)
      false state) :
    ∃ later, LeadsTo (input length) state later ∧
      Resting (input length) visited
        (.walk false [cluster] (block + 3 * size)) false later := by
  have sizeIs : HeapBlock.words state.collector.memory block = 3 * size := by
    rw [HeapBlock.words, (resting.marked.same block known.reached).2]
    exact congrArg (3 * ·) shape.size
  apply resting.go
  unfold control
  simp only [resting.place, sizeIs]

/-- A rescan finds nothing new in the nodes. -/
theorem run_rescan
    (bound : length ≤ 128)
    {visited : Nat → Prop}
    (upTo : VisitedUpTo length length visited)
    {state : MarkState}
    (resting : Resting (input length) visited (.walk false [cluster] (node 0))
      false state)
    {count : Nat}
    (counts : count ≤ length) :
    ∃ visited' later, LeadsTo (input length) state later ∧
      VisitedUpTo length length visited' ∧
      Resting (input length) visited' (.walk false [cluster] (node count)) false
        later := by
  induction count with
  | zero => exact ⟨visited, state, .refl, upTo, resting⟩
  | succ count inductionHypothesis =>
      obtain ⟨visited', first, toFirst, upTo, resting⟩ :=
        inductionHypothesis (Nat.le_of_succ_le counts)
      have graph := graphWellFormed bound
      have inList : count < length := counts
      have shape := shape_node inList
      have known : Known length (node count) := .node inList
      obtain ⟨second, toSecond, traced⟩ := run_walk bound
        (mem_blocks.mpr (.inr ⟨count, inList, rfl⟩)) known
        ((upTo.2 count inList).mpr inList) resting
      obtain ⟨third, _, _, toThird, traced⟩ :=
        traced.visit graph rfl known.reached
          (.inr ⟨fun nonzero => absurd shape.target nonzero, shape.range.symm⟩)
      have upTo := (upTo.all (node count)).all (node count + 3)
      have leaves : LeavesRange (input length)
          (fun other => (visited' other ∨ other = node count) ∨
            other = node count + 3) (node count + 3) 0 0 := by
        refine .inr ⟨fun nonzero => .inr ?_,
          (shape_reference inList).range.symm⟩
        have targetIs : target (input length).memory (node count + 3) = _ :=
          (shape_reference inList).target
        rw [targetIs] at nonzero ⊢
        by_cases nextInList : count + 1 < length
        · rw [if_pos nextInList]
          exact (upTo.2 _ nextInList).mpr nextInList
        · exact absurd (if_neg nextInList) nonzero
      obtain ⟨fourth, _, _, toFourth, traced⟩ :=
        traced.visit graph rfl (Known.reached (.reference inList)) leaves
      have numbers : NumbersWait length
          (rangeOf (node count + 3 + 3) (2 - 1) ++
            (rangeOf (node count + 3) (1 - 1) ++ [])) := by
        intro range isRange
        exact ⟨count, inList, List.mem_singleton.mp isRange⟩
      obtain ⟨visited'', fifth, toFifth, upTo, resting⟩ :=
        run_numbers bound numbers upTo traced
      obtain ⟨sixth, toSixth, resting⟩ := run_advance shape known resting
      exact ⟨visited'', sixth, toFirst.trans (toSecond.trans (toThird.trans
        (toFourth.trans (toFifth.trans toSixth)))), upTo, resting⟩

/-- Without a range dropped, `Mark` ends after the roots. -/
theorem run_finish
    {visited : Nat → Prop}
    {state : MarkState}
    (resting : Resting (input length) visited (.test false) false state) :
    ∃ later, LeadsTo (input length) state later ∧ later.phase = .finished := by
  obtain ⟨first, toFirst, resting⟩ : ∃ later,
      LeadsTo (input length) state later ∧
        Resting (input length) visited (.finalizers []) false later := by
    apply resting.go
    unfold control
    simp only [resting.place, resting.space, input, if_false, Bool.false_eq_true]
  obtain ⟨second, toSecond, resting⟩ : ∃ later,
      LeadsTo (input length) first later ∧
        Resting (input length) visited (.test true) false later := by
    apply resting.go
    unfold control
    simp only [resting.place]
  obtain ⟨third, toThird, resting⟩ : ∃ later,
      LeadsTo (input length) second later ∧
        Resting (input length) visited .finished false later := by
    apply resting.go
    unfold control
    simp only [resting.place, resting.space, if_true, if_false,
      Bool.false_eq_true]
  exact ⟨third, toFirst.trans (toSecond.trans toThird), resting.place⟩

/-- The rescan from behind the weak list ends, and `Mark` with it. -/
theorem run_end
    (bound : length ≤ 128)
    {visited : Nat → Prop}
    (upTo : VisitedUpTo length length visited)
    {state : MarkState}
    (resting : Resting (input length) visited (.walk false [cluster] (node 0))
      false state) :
    ∃ later, LeadsTo (input length) state later ∧ later.phase = .finished := by
  obtain ⟨visited', first, toFirst, _, resting⟩ :=
    run_rescan bound upTo resting (Nat.le_refl length)
  have stop : payloadEnd first.collector.memory cluster = node length :=
    (resting.marked.bounds cluster (List.mem_singleton.mpr rfl)).2.trans
      (payload_bounds length).2
  obtain ⟨second, toSecond, resting⟩ : ∃ later,
      LeadsTo (input length) first later ∧
        Resting (input length) visited' (.test false) false later := by
    apply resting.go
    unfold control
    simp only [resting.place, stop, Nat.lt_irrefl, if_false, startWalk]
  obtain ⟨third, toThird, finished⟩ := run_finish resting
  exact ⟨third, toFirst.trans (toSecond.trans toThird), finished⟩

end Run

end DeepRescan

/-- When no list can be allocated, 128 objects that are linked overflow the
stack, and the rescan visits the weak delegate list again. -/
theorem DeepRescan.run_again :
    ∃ taken state,
      CollectRun (DeepRescan.input 128) taken state ∧
      state.phase = .finished ∧
      (∀ entry ∈ taken, StepFindsRoom entry.1 entry.2) ∧
      ¬ ∀ entry ∈ taken, StepVisitsOnce entry.1 entry.2 := by
  have bound : 128 ≤ 128 := Nat.le_refl 128
  have graph := DeepRescan.graphWellFormed bound
  have known : DeepRescan.Known 128 DeepRescan.weak := .weak
  obtain ⟨visited, first, toFirst, upTo, resting⟩ := DeepRescan.run_dropped
  obtain ⟨second, toSecond, traced⟩ := DeepRescan.run_walk bound
    List.mem_cons_self known upTo.1 resting
  have alive : isAlive second.collector.memory DeepRescan.weak = true :=
    (traced.marked.alive _ known.reached).mpr (.inr upTo.1)
  have isWeak : isWeakDelegateList second.collector.memory DeepRescan.weak =
      true :=
    (traced.marked.isWeakDelegateList known.reached).trans
      DeepRescan.shape_weak.weak
  obtain ⟨third, visits, ⟨room, steps⟩, _, traced⟩ :=
    traced.visit graph rfl known.reached
      (DeepRescan.leaves_nothing DeepRescan.shape_weak)
  obtain ⟨fourth, toFourth, resting⟩ := traced.finish
  obtain ⟨fifth, toFifth, resting⟩ :=
    DeepRescan.run_advance DeepRescan.shape_weak known resting
  obtain ⟨state, toState, finished⟩ :=
    DeepRescan.run_end bound (upTo.all DeepRescan.weak) resting
  obtain ⟨before, runBefore, roomBefore⟩ :=
    (Run.start (DeepRescan.start_starts 128)).extend (toFirst.trans toSecond)
  obtain ⟨behind, run, roomBehind⟩ := (runBefore.next steps).extend
    (toFourth.trans (toFifth.trans toState))
  have roomAll : ∀ entry ∈ [] ++ before ++ [(second, .round noAllocation)] ++
      behind, StepFindsRoom entry.1 entry.2 := by
    simp only [List.nil_append, List.forall_mem_append,
      List.forall_mem_singleton]
    exact ⟨⟨roomBefore, room⟩, roomBehind⟩
  refine ⟨_, state, run, finished, roomAll, fun once => ?_⟩
  have dead := once (second, .round noAllocation) (by simp) _ visits isWeak
  rw [alive] at dead
  cases dead

/-- Two roots refer to a weak delegate list and to no object or to 128 objects,
for which the rescan visits the list again. -/
theorem weakDelegatesReachable_listed_rescan :
    (∃ taken state,
      CollectRun (DeepRescan.input 0) taken state ∧
      state.phase = .finished ∧
      (WeakDelegatesListed (DeepRescan.input 0) state.collector.memory ↔
        ∀ entry ∈ taken, StepVisitsOnce entry.1 entry.2)) ∧
    ∃ taken state,
      CollectRun (DeepRescan.input 128) taken state ∧
      state.phase = .finished ∧
      (WeakDelegatesListed (DeepRescan.input 128) state.collector.memory ↔
        ∀ entry ∈ taken, StepVisitsOnce entry.1 entry.2) := by
  constructor
  · have bound : 0 ≤ 128 := by decide
    obtain ⟨visited, first, toFirst, _, traced⟩ := DeepRescan.run_roots bound
    obtain ⟨second, toSecond, resting⟩ := traced.finish
    obtain ⟨third, toThird, resting⟩ : ∃ later,
        LeadsTo (DeepRescan.input 0) second later ∧
          Resting (DeepRescan.input 0) visited (.test false) false later := by
      apply resting.go
      unfold control
      simp only [resting.place]
    obtain ⟨state, toState, finished⟩ := DeepRescan.run_finish resting
    obtain ⟨taken, run, room⟩ := (Run.start (DeepRescan.start_starts 0)).extend
      (toFirst.trans (toSecond.trans (toThird.trans toState)))
    exact ⟨_, state, run, finished, weakDelegatesReachable_listed
      (DeepRescan.graphWellFormed bound) DeepRescan.noStaleMarks run finished
      room⟩
  · obtain ⟨taken, state, run, finished, room, -⟩ := DeepRescan.run_again
    exact ⟨taken, state, run, finished, weakDelegatesReachable_listed
      (DeepRescan.graphWellFormed (Nat.le_refl 128)) DeepRescan.noStaleMarks run
      finished room⟩

/-- When no list can be allocated, 128 objects that are linked overflow the
stack, and the rescan links the weak delegate list again. -/
theorem weakDelegatesReachable_not_listed :
    ∃ taken state,
      GraphWellFormed (DeepRescan.input 128) ∧
      NoStaleMarks (DeepRescan.input 128) ∧
      CollectRun (DeepRescan.input 128) taken state ∧
      (∀ entry ∈ taken, StepFindsRoom entry.1 entry.2) ∧
      state.phase = .finished ∧
      ¬ WeakDelegatesListed (DeepRescan.input 128) state.collector.memory := by
  have graph := DeepRescan.graphWellFormed (Nat.le_refl 128)
  obtain ⟨taken, state, run, finished, room, again⟩ := DeepRescan.run_again
  refine ⟨taken, state, graph, DeepRescan.noStaleMarks, run, room, finished, ?_⟩
  obtain ⟨_, _, _, ⟨once, _⟩ | ⟨_, cycle⟩⟩ :=
    CollectRun.weakDelegates graph run room
  · exact absurd once again
  · exact cycle.not_listed graph

end GarbageCollector

end NanoClr
