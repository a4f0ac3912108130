import NanoClr.Heap.ExtractBlocks

/-!
# Inserting a free run into a cluster

A run is linked in front of the first free block behind it and merged with the
free blocks it touches.  The proof follows the steps of the source: after the
insertion the run is a linked stretch of its own, merging with a neighbour
widens the stretch by one block, and naming the stretch makes it a free block.
-/

namespace NanoClr

open HeapBlock

namespace HeapCluster

variable {memory memory' : Memory} {cluster first last : Nat}
  {before after lefts rights : List Nat} {left right : Nat}

namespace Surroundings

/-- A stretch can be widened by the free block behind it. -/
theorem widenAfter
    (surroundings : Surroundings memory cluster before (right :: after) first
      last lefts left right rights)
    (free : isFree memory right = true) :
    ∃ right' rights', rights = right' :: rights' ∧
      LinkedPair (next memory) (prev memory) right right' ∧
      right = last ∧
      Surroundings memory cluster before after first
        (last + words memory last) lefts left right' rights' := by
  obtain ⟨rfl, positive, tilingAfter⟩ := surroundings.tilingAfter
  have nodes := surroundings.around.rightNodes
  rw [freeOf_cons_free free, List.cons_append] at nodes
  obtain ⟨right', rights', fixed⟩ := List.exists_cons_of_ne_nil
    (show freeOf memory after ++ [cluster + 3] ≠ [] by simp)
  have shape : rights = right' :: rights' := by
    rw [← fixed]
    exact (List.cons.inj nodes).2.symm
  subst shape
  have linkedRight := surroundings.linkedRight
  have span := surroundings.span
  refine ⟨right', rights', rfl, (List.isChain_cons_cons.mp linkedRight).1, rfl,
    { surroundings with
      tilingAfter
      span := by simp only [words]; omega
      around := {
        leftNodes := surroundings.around.leftNodes
        rightNodes := fixed }
      linkedRight := linkedRight.tail
      pinned := ?_ }⟩
  intro block member
  refine surroundings.pinned block ?_
  rw [freeOf_cons_free free]
  simp only [List.mem_append, List.mem_cons] at member ⊢
  tauto

/-- A stretch can be widened by the free block before it. -/
theorem widenBefore
    (surroundings : Surroundings memory cluster (before ++ [left]) after first
      last lefts left right rights)
    (free : isFree memory left = true) :
    ∃ left' lefts', lefts = lefts' ++ [left'] ∧
      LinkedPair (next memory) (prev memory) left' left ∧
      left + words memory left = first ∧
      Surroundings memory cluster before after left last lefts' left' right
        rights := by
  obtain ⟨tilingBefore, positive, ends⟩ :=
    Tiling.split surroundings.tilingBefore
  have ends : left + words memory left = first := ends
  have nodes := surroundings.around.leftNodes
  rw [freeOf_append, freeOf_cons_free free, freeOf_nil, ← List.cons_append]
    at nodes
  have shape := List.append_inj_left' nodes rfl
  obtain ⟨lefts', left', fixed⟩ : ∃ lefts' left',
      (cluster + 2) :: freeOf memory before = lefts' ++ [left'] :=
    ⟨_, _, (List.dropLast_append_getLast (by simp)).symm⟩
  rw [fixed] at shape
  subst shape
  have linkedLeft := surroundings.linkedLeft
  rw [List.append_assoc, List.singleton_append] at linkedLeft
  have span := surroundings.span
  have wordsEq : words memory left = 3 * dataSize memory left := rfl
  refine ⟨left', lefts', rfl, linkedLeft.pair, ends,
    { surroundings with
      tilingBefore
      span := by omega
      around := {
        leftNodes := fixed
        rightNodes := surroundings.around.rightNodes }
      linkedLeft := linkedLeft.upTo
      pinned := ?_ }⟩
  intro block member
  refine surroundings.pinned block ?_
  simp only [freeOf_append, List.mem_append] at member ⊢
  tauto

end Surroundings

/-- A stretch that is linked as one node but not yet named. -/
structure Pending
    (memory : Memory) (cluster : Nat) (before after : List Nat)
    (node last : Nat) (lefts : List Nat) (left right : Nat)
    (rights : List Nat) : Prop extends
    Surroundings memory cluster before after node last lefts left right
      rights where
  nonempty : node + 3 ≤ last
  leftPair : LinkedPair (next memory) (prev memory) left node
  rightPair : LinkedPair (next memory) (prev memory) node right

/-- The insertion links the stretch to its neighbours. -/
theorem Surroundings.insert
    (surroundings : Surroundings memory cluster before after first last lefts
      left right rights)
    (pair : LinkedPair (next memory) (prev memory) left right)
    (nonempty : first + 3 ≤ last) :
    let memory' := insertBeforeNode (clearData memory first) right first
    WritesOnly memory memory' first last left right ∧
      Pending memory' cluster before after first last lefts left right
        rights := by
  intro memory'
  have place := surroundings.place
  have prevRight : memory (right + 2) = left := pair.2
  have shape : memory' = setNext (setPrev (setPrev (setNext
      (clearData memory first) first right) first left) right first) left
        first := by
    have cleared : removeFromList (clearData memory first) first =
        clearData memory first := by
      simp [removeFromList, clearData, setNext, setPrev, next, prev]
    have prevEq : prev (clearData memory first) right = left := by
      rw [← prevRight]
      simp (disch := omega) only [prev, clearData, setNext, setPrev,
        Function.update_of_ne]
    simp only [memory', insertBeforeNode]
    rw [if_pos (by omega), cleared, prevEq]
    rfl
  have writes : WritesOnly memory memory' first last left right := by
    intro address outside _ _
    rw [shape]
    simp (disch := omega) only [clearData, setNext, setPrev,
      Function.update_of_ne]
  refine ⟨writes, { surroundings.transport writes with
    nonempty
    leftPair := ⟨?_, ?_⟩
    rightPair := ⟨?_, ?_⟩ }⟩
  all_goals
    rw [shape]
    simp (disch := omega) only [next, prev, clearData, setNext, setPrev,
      Function.update_of_ne, Function.update_self]

namespace Pending

/-- Merging with an adjacent free block behind the stretch. -/
theorem mergeAfter
    (pending : Pending memory cluster before (right :: after) first last lefts
      left right rights)
    (free : isFree memory right = true) :
    ∃ right' rights', rights = right' :: rights' ∧
      WritesOnly memory (unlink memory right) first
        (last + words memory last) left right' ∧
      Pending (unlink memory right) cluster before after first
        (last + words memory last) lefts left right' rights' := by
  obtain ⟨right', rights', rfl, pair, rfl, widened⟩ :=
    pending.widenAfter free
  have place := pending.place
  have placeWide := widened.place
  have positive := pending.tilingAfter.2.1
  have nonempty := pending.nonempty
  have nextRight : next memory right = right' := pair.1
  have prevRight : prev memory right = first := pending.rightPair.2
  have shape : unlink memory right = setNext (setPrev (setPrev (setNext memory
      first right') right' first) right 0) right 0 := by
    simp only [unlink, removeFromList, nextRight, prevRight]
    rw [if_pos (by omega), if_pos (by omega)]
  have writes : WritesOnly memory (unlink memory right) first
      (right + words memory right) left right' := by
    intro address outside _ _
    have wordsEq : words memory right = 3 * dataSize memory right := rfl
    rw [shape]
    simp (disch := omega) only [setNext, setPrev, Function.update_of_ne]
  refine ⟨right', rights', rfl, writes, { widened.transport writes with
    nonempty := by omega
    leftPair := ⟨?_, ?_⟩
    rightPair := ⟨?_, ?_⟩ }⟩
  · rw [← pending.leftPair.1, shape]
    simp (disch := omega) only [next, setNext, setPrev, Function.update_of_ne]
  · rw [← pending.leftPair.2, shape]
    simp (disch := omega) only [prev, setNext, setPrev, Function.update_of_ne]
  · rw [shape]
    simp (disch := omega) only [next, setNext, setPrev, Function.update_of_ne,
      Function.update_self]
  · rw [shape]
    simp (disch := omega) only [prev, setNext, setPrev, Function.update_of_ne,
      Function.update_self]

/-- Merging with an adjacent free block before the stretch. -/
theorem mergeBefore
    (pending : Pending memory cluster (before ++ [left]) after first last lefts
      left right rights)
    (free : isFree memory left = true) :
    ∃ left' lefts', lefts = lefts' ++ [left'] ∧
      WritesOnly memory (unlink memory first) left last left' right ∧
      Pending (unlink memory first) cluster before after left last lefts' left'
        right rights := by
  obtain ⟨left', lefts', rfl, pair, ends, widened⟩ := pending.widenBefore free
  have place := pending.place
  have placeWide := widened.place
  have nonempty := pending.nonempty
  have isBlock := pending.tilingBefore.place
    (show left ∈ before ++ [left] by simp)
  have nextFirst : next memory first = right := pending.rightPair.1
  have prevFirst : prev memory first = left := pending.leftPair.2
  have shape : unlink memory first = setNext (setPrev (setPrev (setNext memory
      left right) right left) first 0) first 0 := by
    simp only [unlink, removeFromList, nextFirst, prevFirst]
    rw [if_pos (by omega), if_pos (by omega)]
  have writes : WritesOnly memory (unlink memory first) left last left'
      right := by
    intro address outside _ _
    rw [shape]
    simp (disch := omega) only [setNext, setPrev, Function.update_of_ne]
  refine ⟨left', lefts', rfl, writes, { widened.transport writes with
    nonempty := by omega
    leftPair := ⟨?_, ?_⟩
    rightPair := ⟨?_, ?_⟩ }⟩
  · rw [← pair.1, shape]
    simp (disch := omega) only [next, setNext, setPrev, Function.update_of_ne]
  · rw [← pair.2, shape]
    simp (disch := omega) only [prev, setNext, setPrev, Function.update_of_ne]
  · rw [shape]
    simp (disch := omega) only [next, setNext, setPrev, Function.update_of_ne,
      Function.update_self]
  · rw [shape]
    simp (disch := omega) only [prev, setNext, setPrev, Function.update_of_ne,
      Function.update_self]

/-- Naming the stretch makes it a free block of the cluster. -/
theorem name
    (pending : Pending memory cluster before after first last lefts left right
      rights)
    {size : Nat}
    (length : first + 3 * size = last) :
    WellFormed (setDataId memory first
        (rawId DataType.freeBlock.code HB_Pinned size)) cluster
      (before ++ [first] ++ after) := by
  have place := pending.place
  have nonempty := pending.nonempty
  have small := pending.small
  have sizeSmall : size % 0x10000 = size := by
    simp only [HB_MaxSize] at small
    exact Nat.mod_eq_of_lt (by omega)
  have writes : WritesOnly memory (setDataId memory first
      (rawId DataType.freeBlock.code HB_Pinned size)) first last left
      right := by
    intro address outside _ _
    simp (disch := omega) only [setDataId, Function.update_of_ne]
  have onlyFirst : freeOf (setDataId memory first
      (rawId DataType.freeBlock.code HB_Pinned size)) [first] = [first] :=
    freeOf_cons_free (by simp) []
  refine (pending.transport writes).fill ?_ ?_ ?_
  · refine ⟨rfl, ?_, ?_⟩
    · simp only [words, dataSize_setDataId, sizeSmall]
      omega
    · simp only [words, dataSize_setDataId, sizeSmall]
      exact length
  · rw [onlyFirst]
    refine List.isChain_cons_cons.mpr ⟨⟨?_, ?_⟩, List.isChain_pair.mpr ⟨?_, ?_⟩⟩
    all_goals
      simp (disch := omega) only [next, prev, setDataId, Function.update_of_ne]
    · exact pending.leftPair.1
    · exact pending.leftPair.2
    · exact pending.rightPair.1
    · exact pending.rightPair.2
  · rw [onlyFirst]
    simp [HB_Pinned]

end Pending

/-- What the insertion of the stretch from `first` to `last` gives: the block
`node` covers the stretch and the free blocks it touches, and only that block
and the links into it were written. -/
structure Inserted
    (memory memory' : Memory) (cluster : Nat) (before after : List Nat)
    (first last node stop : Nat) (before' after' : List Nat) : Prop where
  wellFormed : WellFormed memory' cluster (before' ++ [node] ++ after')
  free : isFree memory' node = true
  covers : node + words memory' node = stop
  mergedBefore : before = before' ∧ node = first ∨
    before = before' ++ [node] ∧ isFree memory node = true ∧
      node + words memory node = first
  mergedAfter : after = after' ∧ stop = last ∨
    after = last :: after' ∧ isFree memory last = true ∧
      stop = last + words memory last
  writes : ∃ lefts left right rights,
    Surroundings memory cluster before' after' node stop lefts left right
      rights ∧ WritesOnly memory memory' node stop left right

section Links

variable (surroundings : Surroundings memory cluster before after first last
    lefts left right rights)

include surroundings

/-- The node before the stretch has a predecessor exactly when it is a free
block. -/
theorem Surroundings.prev_left :
    prev memory left ≠ 0 ↔ left ≠ cluster + 2 := by
  have nodes := surroundings.around.leftNodes
  have linked := surroundings.linkedLeft
  constructor
  · rintro linkedBack rfl
    exact linkedBack surroundings.ended
  · intro notHead
    rcases List.eq_nil_or_concat lefts with rfl | ⟨others, other, rfl⟩
    · simp only [List.nil_append, List.cons.injEq] at nodes
      exact absurd nodes.1.symm notHead
    · rw [List.concat_eq_append, List.append_assoc, List.singleton_append]
        at linked
      have back : prev memory left = other := linked.pair.2
      have member : other ∈ (cluster + 2) :: freeOf memory before := by
        simp [nodes]
      rw [back]
      rcases List.mem_cons.mp member with rfl | free
      · omega
      · have := mem_freeOf_place surroundings.tilingBefore free
        omega

/-- The node behind the stretch has a successor exactly when it is a free
block. -/
theorem Surroundings.next_right :
    next memory right ≠ 0 ↔ right ≠ cluster + 3 := by
  have nodes := surroundings.around.rightNodes
  have linked := surroundings.linkedRight
  have place := surroundings.place
  constructor
  · rintro linkedOn rfl
    exact linkedOn surroundings.ended
  · intro notTail
    cases rights with
    | nil =>
        rcases List.append_eq_singleton_iff.mp nodes with ⟨_, same⟩ | ⟨_, same⟩
        · exact absurd (List.singleton_inj.mp same).symm notTail
        · simp at same
    | cons other others =>
        have on : next memory right = other :=
          (List.isChain_cons_cons.mp linked).1.1
        have member : other ∈ freeOf memory after ++ [cluster + 3] := by
          simp [nodes]
        rw [on]
        rcases List.mem_append.mp member with free | isTail
        · have := mem_freeOf_place surroundings.tilingAfter free
          omega
        · have := List.mem_singleton.mp isTail
          omega

/-- The search for the place stops at the node behind the stretch. -/
theorem Surroundings.loop_place
    (pair : LinkedPair (next memory) (prev memory) left right)
    (nonempty : first + 3 ≤ last) :
    loop (searchPlace memory first) (rounds memory cluster)
      (firstNode memory (freeList cluster)) = some right := by
  have place := surroundings.place
  have linked : Linked (next memory) (prev memory)
      ((cluster + 2) :: (freeOf memory before ++ freeOf memory after ++
        [cluster + 3])) := by
    have joined := surroundings.linkedLeft.join pair surroundings.linkedRight
    rw [← surroundings.around.rightNodes, List.append_cons,
      ← surroundings.around.leftNodes] at joined
    simpa using joined
  have bound : (freeOf memory before ++ freeOf memory after).length <
      rounds memory cluster := by
    have start : payloadStart memory cluster = cluster + 8 :=
      surroundings.start
    have beforeLength := surroundings.tilingBefore.length_le
    have afterLength := surroundings.tilingAfter.length_le
    have freeBefore : (freeOf memory before).length ≤ before.length :=
      List.length_filter_le _ _
    have freeAfter : (freeOf memory after).length ≤ after.length :=
      List.length_filter_le _ _
    simp only [List.length_append, rounds, start]
    omega
  have starts : (freeOf memory before ++ freeOf memory after ++
      [cluster + 3]).head? = some (firstNode memory (freeList cluster)) := by
    cases fixed : freeOf memory before ++ freeOf memory after ++
        [cluster + 3] with
    | nil => simp at fixed
    | cons block rest =>
        rw [fixed] at linked
        simp only [List.head?_cons]
        exact congrArg some (List.isChain_cons_cons.mp linked).1.1.symm
  have search := loop_searchNode (fun block => first < block) (fun last => last)
    (linked.tail.imp fun _ _ linkedPair => linkedPair.1) starts ?_
    surroundings.ended bound
  · rw [searchPlace, search]
    have noneBefore : (freeOf memory before).find?
        (fun block => decide (first < block)) = none := by
      refine List.find?_eq_none.mpr fun block member => ?_
      have := mem_freeOf_place surroundings.tilingBefore member
      simp only [decide_eq_true_eq]
      omega
    rw [List.find?_append, noneBefore, Option.none_or]
    have nodes := surroundings.around.rightNodes
    cases fixed : freeOf memory after with
    | nil =>
        rw [fixed, List.nil_append, List.cons.injEq] at nodes
        simp [nodes.1]
    | cons block rest =>
        rw [fixed, List.cons_append, List.cons.injEq] at nodes
        obtain ⟨rfl, _⟩ := nodes
        have := mem_freeOf_place surroundings.tilingAfter
          (show block ∈ freeOf memory after by simp [fixed])
        have behind : first < block := by omega
        simp [behind]
  · intro node member
    simp only [List.mem_append, List.mem_singleton] at member
    rcases member with (isBefore | isAfter) | isTail
    · have := mem_freeOf_place surroundings.tilingBefore isBefore
      omega
    · have := mem_freeOf_place surroundings.tilingAfter isAfter
      omega
    · omega

/-- The node before an adjacent stretch is the last block before it. -/
theorem Surroundings.left_last
    (notHead : left ≠ cluster + 2)
    (adjacent : left + words memory left = first) :
    isFree memory left = true ∧ ∃ before', before = before' ++ [left] := by
  rcases surroundings.around.left_place surroundings.tilingBefore with
    isHead | ⟨free, _⟩
  · exact absurd isHead notHead
  · obtain ⟨member, isFree⟩ := mem_freeOf.mp free
    refine ⟨isFree, ?_⟩
    obtain ⟨before', others, rfl⟩ := List.append_of_mem member
    obtain ⟨_, _, tilingOthers⟩ := Tiling.split surroundings.tilingBefore
    cases others with
    | nil => exact ⟨before', rfl⟩
    | cons other rest =>
        obtain ⟨_, positive, tilingRest⟩ := tilingOthers
        have := tilingRest.start_le_stop
        omega

/-- The node behind an adjacent stretch is the first block behind it. -/
theorem Surroundings.right_first
    (notTail : right ≠ cluster + 3)
    (adjacent : right = last) :
    isFree memory right = true ∧ ∃ after', after = right :: after' := by
  have place := surroundings.place
  rcases surroundings.around.right_place surroundings.tilingAfter (by omega)
    with isTail | ⟨free, _⟩
  · exact absurd isTail notTail
  · obtain ⟨member, isFree⟩ := mem_freeOf.mp free
    refine ⟨isFree, ?_⟩
    have tilingAfter := surroundings.tilingAfter
    cases after with
    | nil => simp at member
    | cons block rest =>
        obtain ⟨rfl, _, _⟩ := tilingAfter
        exact ⟨rest, by rw [adjacent]⟩

end Links

/-! ## The steps of the insertion -/

/-- An insertion that has linked a stretch: the surroundings of the stretch
before, the pending stretch now, and what was written since. -/
structure Progress
    (memory memory' : Memory) (cluster : Nat) (before after : List Nat)
    (node last : Nat) (lefts : List Nat) (left right : Nat)
    (rights : List Nat) : Prop where
  origin : Surroundings memory cluster before after node last lefts left right
    rights
  pending : Pending memory' cluster before after node last lefts left right
    rights
  writes : WritesOnly memory memory' node last left right

/-- Coalescing with the following block. -/
theorem Progress.coalesceFollowing
    (progress : Progress memory memory' cluster before after first last lefts
      left right rights)
    {size : Nat}
    (length : first + 3 * size = last) :
    ∃ after' last' right' rights',
      Progress memory (coalesceFollowing memory' first size).1 cluster before
        after' first last' lefts left right' rights' ∧
      first + 3 * (HeapCluster.coalesceFollowing memory' first size).2 =
        last' ∧
      (after = after' ∧ last' = last ∨
        after = last :: after' ∧ isFree memory last = true ∧
          last' = last + words memory last) := by
  obtain ⟨origin, pending, writes⟩ := progress
  have nextFirst : next memory' first = right := pending.rightPair.1
  simp only [HeapCluster.coalesceFollowing, nextFirst, length]
  by_cases merge : next memory' right ≠ 0 ∧ last = right
  · rw [if_pos merge]
    obtain ⟨linkedOn, rfl⟩ := merge
    obtain ⟨free', after', rfl⟩ := pending.right_first
      (pending.next_right.mp linkedOn) rfl
    have sameId : memory' last = memory last :=
      origin.keepsIds writes (by simp)
    have free : isFree memory last = true := by
      rw [← isFree_congr sameId, free']
    have sameWords : words memory' last = words memory last := by
      simp only [words, (fields_congr sameId).2.2]
    obtain ⟨right', rights', shape, _, _, widened⟩ := origin.widenAfter free
    obtain ⟨right'', rights'', shape', wrote, merged⟩ :=
      pending.mergeAfter free'
    obtain ⟨rfl, rfl⟩ := List.cons.inj (shape.symm.trans shape')
    have place := widened.place
    rw [sameWords] at wrote merged
    refine ⟨after', _, right', rights', ⟨widened, merged, ?_⟩, ?_,
      Or.inr ⟨rfl, free, rfl⟩⟩
    · intro address outside notLeft notRight
      have isBlock := origin.tilingAfter.place
        (show last ∈ last :: after' by simp)
      refine (wrote address outside notLeft notRight).trans ?_
      exact writes address (by omega) notLeft (by omega)
    · have wordsEq : words memory last = 3 * dataSize memory last := rfl
      have sameSize : dataSize memory' last = dataSize memory last :=
        (fields_congr sameId).2.2
      simp only [sameSize]
      omega
  · rw [if_neg merge]
    exact ⟨after, last, right, rights, ⟨origin, pending, writes⟩, length,
      Or.inl ⟨rfl, rfl⟩⟩

/-- Coalescing with the preceding block. -/
theorem Progress.coalescePreceding
    (progress : Progress memory memory' cluster before after first last lefts
      left right rights)
    {size : Nat}
    (length : first + 3 * size = last) :
    ∃ before' lefts' left',
      Progress memory (coalescePreceding memory' first size).1 cluster before'
        after (HeapCluster.coalescePreceding memory' first size).2.1 last
        lefts' left' right rights ∧
      (HeapCluster.coalescePreceding memory' first size).2.1 +
        3 * (HeapCluster.coalescePreceding memory' first size).2.2 = last ∧
      (before = before' ∧
          (HeapCluster.coalescePreceding memory' first size).2.1 = first ∨
        before = before' ++
            [(HeapCluster.coalescePreceding memory' first size).2.1] ∧
          isFree memory
            (HeapCluster.coalescePreceding memory' first size).2.1 = true ∧
          (HeapCluster.coalescePreceding memory' first size).2.1 +
            words memory
              (HeapCluster.coalescePreceding memory' first size).2.1 =
            first) := by
  obtain ⟨origin, pending, writes⟩ := progress
  have prevFirst : prev memory' first = left := pending.leftPair.2
  simp only [HeapCluster.coalescePreceding, prevFirst]
  by_cases merge : prev memory' left ≠ 0 ∧ left + words memory' left = first
  · rw [if_pos merge]
    obtain ⟨linkedBack, adjacent⟩ := merge
    obtain ⟨free', before', rfl⟩ := pending.left_last
      (pending.prev_left.mp linkedBack) adjacent
    have sameId : memory' left = memory left :=
      origin.keepsIds writes (by simp)
    have free : isFree memory left = true := by
      rw [← isFree_congr sameId, free']
    have sameSize : dataSize memory' left = dataSize memory left :=
      (fields_congr sameId).2.2
    obtain ⟨left', lefts', shape, _, ends, widened⟩ := origin.widenBefore free
    obtain ⟨left'', lefts'', shape', wrote, merged⟩ :=
      pending.mergeBefore free'
    obtain ⟨rfl, same⟩ := List.append_inj' (shape.symm.trans shape') rfl
    obtain rfl := List.singleton_inj.mp same
    have isBlock := origin.tilingBefore.place
      (show left ∈ before' ++ [left] by simp)
    have wordsEq : words memory left = 3 * dataSize memory left := rfl
    have nonempty := pending.nonempty
    dsimp only
    refine ⟨before', lefts', left', ⟨widened, merged, ?_⟩, ?_,
      Or.inr ⟨rfl, free, ends⟩⟩
    · intro address outside notLeft notRight
      refine (wrote address outside notLeft notRight).trans ?_
      exact writes address (by omega) (by omega) notRight
    · simp only [sameSize]
      omega
  · rw [if_neg merge]
    exact ⟨before, lefts, left, ⟨origin, pending, writes⟩, length,
      Or.inl ⟨rfl, rfl⟩⟩

/-- `InsertInOrder` of a stretch into a cluster that is well formed around it. -/
theorem insertInOrder_spec
    (surroundings : Surroundings memory cluster before after first last lefts
      left right rights)
    (pair : LinkedPair (next memory) (prev memory) left right)
    {size : Nat}
    (length : first + 3 * size = last)
    (positive : 1 ≤ size) :
    ∃ memory' node stop before' after',
      insertInOrder memory cluster first size = some (memory', node) ∧
        Inserted memory memory' cluster before after first last node stop
          before' after' := by
  have nonempty : first + 3 ≤ last := by omega
  obtain ⟨writes, pending⟩ := surroundings.insert pair nonempty
  have linked : Progress memory
      (insertBeforeNode (clearData memory first) right first) cluster before
      after first last lefts left right rights := ⟨surroundings, pending, writes⟩
  obtain ⟨after', last', right', rights', merged, length', mergedAfter⟩ :=
    linked.coalesceFollowing length
  obtain ⟨before', lefts', left', ⟨origin, final, written⟩, length'',
    mergedBefore⟩ := merged.coalescePreceding length'
  generalize followingIs : coalesceFollowing
    (insertBeforeNode (clearData memory first) right first) first size =
      following at *
  generalize precedingIs :
    coalescePreceding following.1 first following.2 = preceding at *
  have runs : insertInOrder memory cluster first size =
      some (setDataId preceding.1 preceding.2.1
        (rawId DataType.freeBlock.code HB_Pinned preceding.2.2),
        preceding.2.1) := by
    simp [insertInOrder, surroundings.loop_place pair nonempty, followingIs,
      precedingIs]
  have place := final.place
  have small := final.small
  have isFree : NanoClr.isFree (setDataId preceding.1 preceding.2.1
      (rawId DataType.freeBlock.code HB_Pinned preceding.2.2)) preceding.2.1 =
        true := by simp
  refine ⟨setDataId preceding.1 preceding.2.1
    (rawId DataType.freeBlock.code HB_Pinned preceding.2.2), preceding.2.1,
    last', before', after', runs, final.name length'', isFree, ?_,
    mergedBefore, mergedAfter, lefts', left', right', rights', origin, ?_⟩
  · have sizeSmall : preceding.2.2 % 0x10000 = preceding.2.2 := by
      simp only [HB_MaxSize] at small
      exact Nat.mod_eq_of_lt (by omega)
    simp only [words, dataSize_setDataId, sizeSmall]
    exact length''
  · intro address outside notLeft notRight
    have nonempty := final.nonempty
    rw [setDataId_other _ _ _ _ (by omega)]
    exact written address outside notLeft notRight

end HeapCluster

end NanoClr
