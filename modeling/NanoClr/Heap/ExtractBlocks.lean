import NanoClr.Heap.ClusterInvariant

/-!
# Extracting blocks from a cluster

A request is served from the first free block that is long enough, seen from
the front for objects and from the back for events.  The block that is handed
out lies in that free block, and no other block is touched.
-/

namespace NanoClr

open HeapBlock

/-- No word of a block differs. -/
def Unaltered (memory memory' : Memory) (block : Nat) : Prop :=
  ∀ address, block ≤ address → address < block + words memory block →
    memory' address = memory address

namespace HeapCluster

variable {memory memory' : Memory} {cluster : Nat} {blocks : List Nat}

namespace WellFormed

variable (wellFormed : WellFormed memory cluster blocks)

include wellFormed

/-- Where a block of a well-formed cluster lies. -/
theorem place {block : Nat} (member : block ∈ blocks) :
    cluster + 8 ≤ block ∧ block % 3 = (cluster + 8) % 3 ∧
      3 ≤ words memory block ∧
      block + words memory block ≤ payloadEnd memory cluster :=
  wellFormed.tiling.place member

/-- Every node of the free list has a nonzero address. -/
theorem node_nonzero {node : Nat}
    (member : node ∈ (cluster + 2) :: freeOf memory blocks ++ [cluster + 3]) :
    node ≠ 0 := by
  simp only [List.cons_append, List.mem_cons, List.mem_append, mem_freeOf,
    List.not_mem_nil, or_false] at member
  rcases member with rfl | ⟨member, _⟩ | rfl
  · omega
  · have := wellFormed.place member
    omega
  · omega

theorem next_tail : next memory (cluster + 3) = 0 := wellFormed.ended

theorem prev_head : prev memory (cluster + 2) = 0 := wellFormed.ended

/-- The loop bound covers every free list. -/
theorem free_lt_rounds :
    (freeOf memory blocks).length < rounds memory cluster := by
  have start : payloadStart memory cluster = cluster + 8 := wellFormed.start
  have counted := wellFormed.tiling.length_le
  have filtered : (freeOf memory blocks).length ≤ blocks.length :=
    List.length_filter_le _ _
  simp only [rounds, start]
  omega

/-- A walk along the forward links visits the free blocks in order. -/
theorem loop_forward (found : Nat → Bool) (miss : Nat → Nat) :
    loop (searchNode (next memory) found miss) (rounds memory cluster)
        (firstNode memory (freeList cluster)) =
      some (((freeOf memory blocks).find? found).getD (miss (cluster + 3))) := by
  have linked := wellFormed.linked
  rw [head_freeList, tail_freeList, List.cons_append] at linked
  refine loop_searchNode found miss (linked.tail.imp fun _ _ pair => pair.1) ?_ ?_
    wellFormed.next_tail wellFormed.free_lt_rounds
  · cases fixed : freeOf memory blocks ++ [cluster + 3] with
    | nil => simp at fixed
    | cons first rest =>
        rw [fixed] at linked
        simp only [List.head?_cons]
        exact congrArg some (List.isChain_cons_cons.mp linked).1.1.symm
  · intro node member
    exact wellFormed.node_nonzero (List.mem_cons_of_mem _ member)

/-- A walk along the backward links visits the free blocks in reverse. -/
theorem loop_backward (found : Nat → Bool) (miss : Nat → Nat) :
    loop (searchNode (prev memory) found miss) (rounds memory cluster)
        (lastNode memory (freeList cluster)) =
      some (((freeOf memory blocks).reverse.find? found).getD
        (miss (cluster + 2))) := by
  have linked := wellFormed.linked
  rw [head_freeList, tail_freeList] at linked
  have backward := List.isChain_reverse.mpr linked
  rw [List.reverse_append, List.reverse_singleton, List.singleton_append,
    List.reverse_cons] at backward
  refine loop_searchNode found miss (backward.tail.imp fun _ _ pair => pair.2) ?_ ?_
    wellFormed.prev_head (by simpa using wellFormed.free_lt_rounds)
  · cases fixed : (freeOf memory blocks).reverse ++ [cluster + 2] with
    | nil => simp at fixed
    | cons first rest =>
        rw [fixed] at backward
        simp only [List.head?_cons]
        exact congrArg some (List.isChain_cons_cons.mp backward).1.2.symm
  · intro node member
    refine wellFormed.node_nonzero ?_
    simp only [List.mem_append, List.mem_reverse,
      List.mem_cons] at member ⊢
    tauto

end WellFormed

/-- What an operation on a cluster leaves alone: the blocks in use, except
those it was asked to give up, and everything outside the cluster. -/
structure Preserves
    (memory memory' : Memory) (cluster : Nat) (blocks blocks' : List Nat)
    (released : Nat → Prop) : Prop where
  used : ∀ block ∈ blocks, isFree memory block = false → ¬ released block →
    block ∈ blocks' ∧ Unaltered memory memory' block
  outside : ∀ address,
    address < cluster ∨ payloadEnd memory cluster ≤ address →
      memory' address = memory address
  stop : payloadEnd memory' cluster = payloadEnd memory cluster

/-- A replacement preserves the blocks around it. -/
theorem WritesOnly.preserves
    {before old after lefts rights : List Nat}
    {left right first last : Nat}
    (writes : WritesOnly memory memory' first last left right)
    (mid : List Nat)
    (around : Around memory cluster before after lefts left right rights)
    (tilingBefore : HeapTiling memory first (cluster + 8) before)
    (tilingOld : HeapTiling memory last first old)
    (tilingAfter :
      HeapTiling memory (payloadEnd memory cluster) last after) :
    Preserves memory memory' cluster (before ++ old ++ after)
      (before ++ mid ++ after)
      (fun block => block ∈ old) where
  used := by
    intro block member used kept
    have member : block ∈ before ++ after := by
      simp only [List.mem_append] at member ⊢
      tauto
    refine ⟨by simp only [List.mem_append] at member ⊢; tauto, ?_⟩
    intro address lower upper
    exact writes.keepsUsed around tilingBefore tilingOld.span tilingAfter
      member used ⟨lower, upper⟩
  outside := by
    intro address outside
    have := tilingBefore.span
    have := tilingOld.span
    have := tilingAfter.span
    exact writes.keepsOutside around tilingBefore tilingOld.span tilingAfter
      outside (by omega)
  stop := by
    have := tilingBefore.span
    have := tilingOld.span
    have := around.left_place tilingBefore
    have := around.right_place tilingAfter (by omega)
    exact writes (cluster + 7) (by omega) (by omega) (by omega)

/-- What a successful extraction gives. -/
structure Extracted
    (memory memory' : Memory) (cluster : Nat) (blocks blocks' : List Nat)
    (kind : DataType) (flags length block : Nat) : Prop where
  wellFormed : WellFormed memory' cluster blocks'
  member : block ∈ blocks'
  type : dataType memory' block = some kind
  size : dataSize memory' block = length
  flagged : dataFlags memory' block = flags % 0x100
  preserves : Preserves memory memory' cluster blocks blocks' fun _ => False
  separate : ∀ other ∈ blocks, isFree memory other = false →
    other + words memory other ≤ block ∨ block + 3 * length ≤ other
  fresh : ∀ other ∈ blocks', isFree memory' other = false →
    other = block ∨ other ∈ blocks ∧ isFree memory other = false

section TakeBlock

variable {before after lefts rights : List Nat} {block left right : Nat}

/-- The tilings around and of one block. -/
theorem WellFormed.split
    (wellFormed : WellFormed memory cluster (before ++ [block] ++ after)) :
    HeapTiling memory block (cluster + 8) before ∧
      HeapTiling memory (block + words memory block) block [block] ∧
      HeapTiling memory (payloadEnd memory cluster)
        (block + words memory block) after := by
  have tiling := wellFormed.tiling
  rw [List.append_assoc, List.singleton_append] at tiling
  obtain ⟨tilingBefore, positive, tilingAfter⟩ := Tiling.split tiling
  exact ⟨tilingBefore, ⟨rfl, positive, rfl⟩, tilingAfter⟩

/-- The neighbours of a free block are the ones its links name. -/
theorem WellFormed.neighbours
    (wellFormed : WellFormed memory cluster (before ++ [block] ++ after))
    (free : isFree memory block = true)
    (around : Around memory cluster before after lefts left right rights) :
    LinkedPair (next memory) (prev memory) left block ∧
      LinkedPair (next memory) (prev memory) block right := by
  have linked := wellFormed.linked
  rw [head_freeList, tail_freeList, freeOf_append, freeOf_append,
    freeOf_cons_free free, freeOf_nil, ← List.cons_append,
    ← List.cons_append, around.leftNodes, List.append_assoc,
    around.rightNodes] at linked
  have linked' : Linked (next memory) (prev memory)
      (lefts ++ left :: block :: right :: rights) := by
    simpa using linked
  have behind : Linked (next memory) (prev memory)
      ((lefts ++ [left]) ++ block :: right :: rights) := by
    simpa using linked'
  exact ⟨linked'.pair, behind.pair⟩

/-- A replacement of one free block by others, of which one is in use, is an
extraction. -/
theorem extracted_of_replace
    (wellFormed : WellFormed memory cluster (before ++ [block] ++ after))
    (free : isFree memory block = true)
    (around : Around memory cluster before after lefts left right rights)
    (writes : WritesOnly memory memory' block (block + words memory block)
      left right)
    {mid : List Nat}
    {kind : DataType}
    {flags length taken : Nat}
    (tilingMid : HeapTiling memory' (block + words memory block) block mid)
    (linkedMid : Linked (next memory') (prev memory')
      (left :: freeOf memory' mid ++ [right]))
    (pinnedMid : ∀ other ∈ freeOf memory' mid,
      dataFlags memory' other = HB_Pinned)
    (member : taken ∈ mid)
    (type : dataType memory' taken = some kind)
    (size : dataSize memory' taken = length)
    (flagged : dataFlags memory' taken = flags % 0x100)
    (single : ∀ other ∈ mid, isFree memory' other = false → other = taken) :
    Extracted memory memory' cluster (before ++ [block] ++ after)
      (before ++ mid ++ after) kind flags length taken := by
  obtain ⟨tilingBefore, tilingOld, tilingAfter⟩ := wellFormed.split
  have preserves := writes.preserves mid around tilingBefore tilingOld
    tilingAfter
  have notOld {other : Nat} (used : isFree memory other = false) :
      other ≠ block := by
    rintro rfl
    simp [free] at used
  have takenPlace := tilingMid.place member
  have takenWords : words memory' taken = 3 * length := by
    rw [words, size]
  refine {
    wellFormed := wellFormed.replace around tilingBefore tilingOld tilingAfter
      writes tilingMid linkedMid pinnedMid
    member := by simp [member]
    type, size, flagged
    preserves := { preserves with
      used := fun other isMember used _ =>
        preserves.used other isMember used (by simpa using notOld used) }
    separate := ?_
    fresh := ?_ }
  · intro other isMember used
    have blockMember : block ∈ before ++ [block] ++ after := by simp
    have := wellFormed.tiling.disjoint isMember blockMember (notOld used)
    omega
  · intro other isMember used
    simp only [List.mem_append] at isMember ⊢
    have outside (isOutside : other ∈ before ∨ other ∈ after) :
        memory' other = memory other := by
      have spanBefore := tilingBefore.span
      have leftPlace := around.left_place tilingBefore
      have rightPlace := around.right_place tilingAfter
        (by have := tilingOld.span; omega)
      have spanOld := tilingOld.span
      rcases isOutside with isBefore | isAfter
      · have := tilingBefore.place isBefore
        exact writes other (by omega) (by omega) (by omega)
      · have := tilingAfter.place isAfter
        exact writes other (by omega) (by omega) (by omega)
    rcases isMember with (isBefore | isMid) | isAfter
    · rw [isFree_congr (outside (Or.inl isBefore))] at used
      exact Or.inr ⟨Or.inl (Or.inl isBefore), used⟩
    · exact Or.inl (single other isMid used)
    · rw [isFree_congr (outside (Or.inr isAfter))] at used
      exact Or.inr ⟨Or.inr isAfter, used⟩

/-- Where a free block and its neighbours lie. -/
theorem WellFormed.around_place
    (wellFormed : WellFormed memory cluster (before ++ [block] ++ after))
    (around : Around memory cluster before after lefts left right rights) :
    (left = cluster + 2 ∨ cluster + 8 ≤ left ∧
        left % 3 = (cluster + 8) % 3 ∧ left + 3 ≤ block) ∧
      cluster + 8 ≤ block ∧ block % 3 = (cluster + 8) % 3 ∧
      (right = cluster + 3 ∨ block + words memory block ≤ right ∧
        right % 3 = (cluster + 8) % 3) := by
  obtain ⟨tilingBefore, tilingOld, tilingAfter⟩ := wellFormed.split
  have spanBefore := tilingBefore.span
  have spanOld := tilingOld.span
  have leftPlace := around.left_place tilingBefore
  have rightPlace := around.right_place tilingAfter (by omega)
  omega

/-- A free block of the right length is unlinked as a whole. -/
theorem extracted_whole
    (wellFormed : WellFormed memory cluster (before ++ [block] ++ after))
    (free : isFree memory block = true)
    (around : Around memory cluster before after lefts left right rights)
    {kind : DataType}
    (notFree : kind ≠ .freeBlock)
    {flags length : Nat}
    (exact : dataSize memory block = length) :
    Extracted memory
      (setDataId (setPrev (setNext memory left right) right left) block
        (rawId kind.code flags length)) cluster (before ++ [block] ++ after)
      (before ++ [block] ++ after) kind flags length block := by
  have small : length < 0x10000 := exact ▸ dataSize_lt memory block
  have place := wellFormed.around_place around
  have wordsEq : words memory block = 3 * length := by rw [words, exact]
  have tilingOld := wellFormed.split.2.1
  have positive := tilingOld.span
  have noneFree : freeOf (setDataId (setPrev (setNext memory left right) right
      left) block (rawId kind.code flags length)) [block] = [] := by
    rw [freeOf_cons_used (by simp [notFree]), freeOf_nil]
  refine extracted_of_replace wellFormed free around ?_ ?_ ?_ ?_ (by simp)
    (by simp) (by simp [Nat.mod_eq_of_lt small]) (by simp) (by simp)
  · intro address outside notLeft notRight
    have := tilingOld.2.1
    simp (disch := omega) only [setDataId, setPrev, setNext,
      Function.update_of_ne]
  · refine ⟨rfl, ?_, ?_⟩
    · have := tilingOld.2.1
      simp [words, Nat.mod_eq_of_lt small]
      omega
    · simp [words, Nat.mod_eq_of_lt small, exact]
  · rw [noneFree]
    refine List.isChain_pair.mpr ⟨?_, ?_⟩
    · simp (disch := omega) only [next, setDataId, setPrev, setNext,
        Function.update_of_ne, Function.update_self]
    · simp (disch := omega) only [prev, setDataId, setPrev,
        Function.update_of_ne, Function.update_self]
  · rw [noneFree]
    simp

/-- An event takes the end of a longer free block. -/
theorem extracted_end
    (wellFormed : WellFormed memory cluster (before ++ [block] ++ after))
    (free : isFree memory block = true)
    (around : Around memory cluster before after lefts left right rights)
    {kind : DataType}
    (notFree : kind ≠ .freeBlock)
    {flags length available : Nat}
    (positive : 1 ≤ length)
    (nonempty : 1 ≤ available)
    (size : dataSize memory block = available + length) :
    Extracted memory
      (setDataId (setDataId memory block
          (rawId DataType.freeBlock.code HB_Pinned available))
        (block + 3 * available) (rawId kind.code flags length))
      cluster (before ++ [block] ++ after)
      (before ++ [block, block + 3 * available] ++ after)
      kind flags length (block + 3 * available) := by
  have small := dataSize_lt memory block
  have place := wellFormed.around_place around
  have wordsEq : words memory block = 3 * (available + length) := by
    rw [words, size]
  obtain ⟨leftPair, rightPair⟩ := wellFormed.neighbours free around
  have lengthSmall : length % 0x10000 = length := Nat.mod_eq_of_lt (by omega)
  have availableSmall : available % 0x10000 = available :=
    Nat.mod_eq_of_lt (by omega)
  generalize fixed : setDataId (setDataId memory block
    (rawId DataType.freeBlock.code HB_Pinned available))
    (block + 3 * available) (rawId kind.code flags length) = memory'
  have blockId : memory' block = setDataId memory block
      (rawId DataType.freeBlock.code HB_Pinned available) block := by
    rw [← fixed]
    simp (disch := omega) only [setDataId, Function.update_of_ne]
  have takenId : memory' (block + 3 * available) = setDataId memory
      (block + 3 * available) (rawId kind.code flags length)
      (block + 3 * available) := by
    rw [← fixed]
    simp only [setDataId, Function.update_self]
  obtain ⟨blockType, blockFlags, blockSize⟩ := fields_congr blockId
  obtain ⟨takenType, takenFlags, takenSize⟩ := fields_congr takenId
  rw [dataType_setDataId] at blockType takenType
  rw [dataFlags_setDataId] at blockFlags takenFlags
  rw [dataSize_setDataId] at blockSize takenSize
  rw [availableSmall] at blockSize
  rw [lengthSmall] at takenSize
  have onlyBlock : freeOf memory' [block, block + 3 * available] = [block] := by
    rw [freeOf_cons_free (by simp [isFree, blockType]),
      freeOf_cons_used (by simp [isFree, takenType, notFree]), freeOf_nil]
  refine extracted_of_replace wellFormed free around ?_ ?_ ?_ ?_ (by simp)
    takenType takenSize takenFlags ?_
  · intro address outside _ _
    rw [← fixed]
    simp (disch := omega) only [setDataId, Function.update_of_ne]
  · refine HeapTiling.pair ?_ ?_ ?_ ?_ <;>
      simp only [words, blockSize, takenSize, size] <;> omega
  · rw [onlyBlock, ← fixed]
    refine List.isChain_cons_cons.mpr ⟨⟨?_, ?_⟩, List.isChain_pair.mpr ⟨?_, ?_⟩⟩
    all_goals
      simp (disch := omega) only [next, prev, setDataId, Function.update_of_ne]
    · exact leftPair.1
    · exact leftPair.2
    · exact rightPair.1
    · exact rightPair.2
  · rw [onlyBlock]
    simp [blockFlags, HB_Pinned]
  · intro other member used
    rcases List.mem_cons.mp member with rfl | isTaken
    · simp [isFree, blockType] at used
    · exact List.mem_singleton.mp isTaken

/-- An object takes the beginning of a longer free block, and the rest takes
the place of the block in the free list. -/
theorem extracted_beginning
    (wellFormed : WellFormed memory cluster (before ++ [block] ++ after))
    (free : isFree memory block = true)
    (around : Around memory cluster before after lefts left right rights)
    {kind : DataType}
    (notFree : kind ≠ .freeBlock)
    {flags length available : Nat}
    (positive : 1 ≤ length)
    (nonempty : 1 ≤ available)
    (size : dataSize memory block = available + length) :
    Extracted memory
      (setDataId (setPrev (setNext (setPrev (setNext (setDataId memory
          (block + 3 * length)
          (rawId DataType.freeBlock.code HB_Pinned available))
          (block + 3 * length) right) (block + 3 * length) left)
          left (block + 3 * length)) right (block + 3 * length))
        block (rawId kind.code flags length))
      cluster (before ++ [block] ++ after)
      (before ++ [block, block + 3 * length] ++ after)
      kind flags length block := by
  have small := dataSize_lt memory block
  have place := wellFormed.around_place around
  have wordsEq : words memory block = 3 * (available + length) := by
    rw [words, size]
  have lengthSmall : length % 0x10000 = length := Nat.mod_eq_of_lt (by omega)
  have availableSmall : available % 0x10000 = available :=
    Nat.mod_eq_of_lt (by omega)
  generalize fixed : setDataId (setPrev (setNext (setPrev (setNext (setDataId
    memory (block + 3 * length)
    (rawId DataType.freeBlock.code HB_Pinned available))
    (block + 3 * length) right) (block + 3 * length) left)
    left (block + 3 * length)) right (block + 3 * length))
    block (rawId kind.code flags length) = memory'
  have restId : memory' (block + 3 * length) = setDataId memory
      (block + 3 * length)
      (rawId DataType.freeBlock.code HB_Pinned available)
      (block + 3 * length) := by
    rw [← fixed]
    simp (disch := omega) only [setDataId, setNext, setPrev,
      Function.update_of_ne]
  have blockId : memory' block = setDataId memory block
      (rawId kind.code flags length) block := by
    rw [← fixed]
    simp only [setDataId, Function.update_self]
  obtain ⟨blockType, blockFlags, blockSize⟩ := fields_congr blockId
  obtain ⟨restType, restFlags, restSize⟩ := fields_congr restId
  rw [dataType_setDataId] at blockType restType
  rw [dataFlags_setDataId] at blockFlags restFlags
  rw [dataSize_setDataId] at blockSize restSize
  rw [lengthSmall] at blockSize
  rw [availableSmall] at restSize
  have onlyRest : freeOf memory' [block, block + 3 * length] =
      [block + 3 * length] := by
    rw [freeOf_cons_used (by simp [isFree, blockType, notFree]),
      freeOf_cons_free (by simp [isFree, restType]), freeOf_nil]
  refine extracted_of_replace wellFormed free around ?_ ?_ ?_ ?_ (by simp)
    blockType blockSize blockFlags ?_
  · intro address outside _ _
    rw [← fixed]
    simp (disch := omega) only [setDataId, setNext, setPrev,
      Function.update_of_ne]
  · refine HeapTiling.pair ?_ ?_ ?_ ?_ <;>
      simp only [words, blockSize, restSize, size] <;> omega
  · rw [onlyRest, ← fixed]
    refine List.isChain_cons_cons.mpr ⟨⟨?_, ?_⟩, List.isChain_pair.mpr ⟨?_, ?_⟩⟩
    all_goals
      simp (disch := omega) only [next, prev, setDataId, setNext, setPrev,
        Function.update_of_ne, Function.update_self]
  · rw [onlyRest]
    simp [restFlags, HB_Pinned]
  · intro other member used
    rcases List.mem_cons.mp member with same | isRest
    · exact same
    · rw [List.mem_singleton.mp isRest] at used
      simp [isFree, restType] at used

/-- Taking a block of the requested length out of a free block. -/
theorem extracted_takeBlock
    (wellFormed : WellFormed memory cluster (before ++ [block] ++ after))
    (free : isFree memory block = true)
    {kind : DataType}
    (notFree : kind ≠ .freeBlock)
    (flags : Nat)
    {length : Nat}
    (positive : 1 ≤ length)
    (enough : length ≤ dataSize memory block) :
    ∃ blocks', Extracted memory
      (setDataId (takeBlock memory flags length block).1
        (takeBlock memory flags length block).2
        (rawId kind.code flags length)) cluster
      (before ++ [block] ++ after) blocks' kind flags length
      (takeBlock memory flags length block).2 := by
  obtain ⟨lefts, left, right, rights, around⟩ :=
    exists_around memory cluster before after
  obtain ⟨⟨_, blockPrev⟩, blockNext, _⟩ := wellFormed.neighbours free around
  by_cases exact : dataSize memory block - length = 0
  · have shape : takeBlock memory flags length block =
        (setPrev (setNext memory left right) right left, block) := by
      simp [takeBlock, exact, blockNext, blockPrev]
    rw [shape]
    exact ⟨_, extracted_whole wellFormed free around notFree (by omega)⟩
  · have size : dataSize memory block =
        (dataSize memory block - length) + length := by omega
    by_cases isEvent : flags &&& HB_Event ≠ 0
    · simp only [takeBlock, exact, isEvent, ne_eq, not_false_eq_true, if_true]
      exact ⟨_, extracted_end wellFormed free around notFree positive
        (by omega) size⟩
    · simp only [takeBlock, exact, isEvent, ne_eq, not_false_eq_true, if_true,
        if_false, blockNext, blockPrev]
      exact ⟨_, extracted_beginning wellFormed free around notFree positive
        (by omega) size⟩

/-- The contents of a block in use do not matter to the cluster. -/
theorem WellFormed.fill
    (wellFormed : WellFormed memory cluster (before ++ [block] ++ after))
    (used : isFree memory block = false)
    (same : ∀ address,
      address ≤ block ∨ block + words memory block ≤ address →
        memory' address = memory address) :
    WellFormed memory' cluster (before ++ [block] ++ after) := by
  obtain ⟨lefts, left, right, rights, around⟩ :=
    exists_around memory cluster before after
  obtain ⟨tilingBefore, tilingOld, tilingAfter⟩ := wellFormed.split
  have place := wellFormed.around_place around
  have sameId : memory' block = memory block := same block (by omega)
  have used' : isFree memory' block = false := by rw [isFree_congr sameId, used]
  refine wellFormed.replace around tilingBefore tilingOld tilingAfter ?_ ?_ ?_ ?_
  · intro address outside _ _
    exact same address (by omega)
  · exact tilingOld.congr (by simp [sameId])
  · have linked := wellFormed.linked
    rw [head_freeList, tail_freeList, freeOf_append, freeOf_append,
      freeOf_cons_used used, freeOf_nil, ← List.cons_append,
      ← List.cons_append, around.leftNodes, List.append_assoc,
      around.rightNodes] at linked
    have linked' : Linked (next memory) (prev memory)
        (lefts ++ left :: right :: rights) := by simpa using linked
    have pair := linked'.pair
    have spanOld := tilingOld.span
    rw [freeOf_cons_used used', freeOf_nil]
    refine List.isChain_pair.mpr ⟨?_, ?_⟩
    · exact (same (left + 1) (by omega)).trans pair.1
    · exact (same (right + 2) (by omega)).trans pair.2
  · rw [freeOf_cons_used used', freeOf_nil]
    simp

end TakeBlock

/-- Clearing an extracted block changes nothing else. -/
theorem Extracted.initializeToZero
    {blocks' : List Nat}
    {kind : DataType}
    {flags length block : Nat}
    (notFree : kind ≠ .freeBlock)
    (extracted : Extracted memory memory' cluster blocks blocks' kind flags
      length block) :
    Extracted memory (initializeToZero memory' block) cluster blocks blocks'
      kind flags length block := by
  have wordsEq : words memory' block = 3 * length := by
    rw [words, extracted.size]
  have same (address : Nat)
      (outside : address ≤ block ∨ block + 3 * length ≤ address) :
      HeapBlock.initializeToZero memory' block address = memory' address := by
    rw [HeapBlock.initializeToZero, if_neg (by omega)]
  have used : isFree memory' block = false := by
    simp [isFree, extracted.type, notFree]
  obtain ⟨type, flagged, size⟩ := fields_congr (same block (by omega))
  have place := extracted.wellFormed.place extracted.member
  have keepsId (other : Nat) (member : other ∈ blocks') :
      HeapBlock.initializeToZero memory' block other = memory' other := by
    by_cases equal : other = block
    · exact same other (by omega)
    · have := extracted.wellFormed.tiling.disjoint member extracted.member equal
      have := extracted.wellFormed.place member
      exact same other (by omega)
  refine { extracted with
    wellFormed := ?_
    type := type.trans extracted.type
    size := size.trans extracted.size
    flagged := flagged.trans extracted.flagged
    preserves := ?_
    fresh := ?_ }
  · obtain ⟨before, after, rfl⟩ := List.append_of_mem extracted.member
    have wellFormed := extracted.wellFormed
    rw [← List.singleton_append, ← List.append_assoc] at wellFormed ⊢
    exact wellFormed.fill used (by rw [wordsEq]; exact same)
  · have sameEnd := extracted.preserves.stop
    refine { used := ?_, outside := ?_, stop := ?_ }
    · intro other member isUsed kept
      have separate := extracted.separate other member isUsed
      obtain ⟨stays, unaltered⟩ :=
        extracted.preserves.used other member isUsed kept
      refine ⟨stays, fun address lower upper => ?_⟩
      rw [same address (by omega)]
      exact unaltered address lower upper
    · intro address outside
      rw [same address (by omega)]
      exact extracted.preserves.outside address outside
    · rw [payloadEnd, same (cluster + 7) (by omega)]
      exact sameEnd
  · intro other member isUsed
    rw [isFree_congr (keepsId other member)] at isUsed
    exact extracted.fresh other member isUsed

/-- `ExtractBlocks` on a well-formed cluster: either no free block is long
enough and nothing changes, or a block of the requested length is cut out of
the free blocks. -/
theorem extractBlocks_spec
    (wellFormed : WellFormed memory cluster blocks)
    {kind : DataType}
    (notFree : kind ≠ .freeBlock)
    (flags : Nat)
    {length : Nat}
    (positive : 1 ≤ length) :
    (extractBlocks memory cluster kind.code flags length = some (memory, 0) ∧
        ∀ block ∈ freeOf memory blocks, dataSize memory block < length) ∨
      ∃ memory' block blocks', block ≠ 0 ∧
        extractBlocks memory cluster kind.code flags length =
          some (memory', block) ∧
        Extracted memory memory' cluster blocks blocks' kind flags length
          block := by
  obtain ⟨free, sameMembers, search⟩ : ∃ free : List Nat,
      (∀ block, block ∈ free ↔ block ∈ freeOf memory blocks) ∧
      findBlock memory cluster flags length =
        some ((free.find? fun block => length ≤ dataSize memory block).getD
          0) := by
    by_cases isEvent : flags &&& HB_Event ≠ 0
    · rw [findBlock, if_pos isEvent]
      exact ⟨_, fun _ => List.mem_reverse,
        wellFormed.loop_backward _ fun _ => 0⟩
    · rw [findBlock, if_neg isEvent]
      exact ⟨_, fun _ => Iff.rfl, wellFormed.loop_forward _ fun _ => 0⟩
  cases found : free.find? fun block => length ≤ dataSize memory block with
  | none =>
      left
      refine ⟨by simp [extractBlocks, search, found], ?_⟩
      intro block member
      have missed := List.find?_eq_none.mp found block
        ((sameMembers block).mpr member)
      simpa using missed
  | some block =>
      right
      have enough : length ≤ dataSize memory block := by
        simpa using List.find?_some found
      obtain ⟨member, isFree⟩ := mem_freeOf.mp
        ((sameMembers block).mp (List.mem_of_find?_eq_some found))
      have nonzero : block ≠ 0 := by
        have := wellFormed.place member
        omega
      obtain ⟨before, after, rfl⟩ := List.append_of_mem member
      rw [← List.singleton_append, ← List.append_assoc] at wellFormed ⊢
      obtain ⟨blocks', extracted⟩ := extracted_takeBlock wellFormed
        isFree notFree flags positive enough
      have takenNonzero : (takeBlock memory flags length block).2 ≠ 0 := by
        have := extracted.wellFormed.place extracted.member
        omega
      refine ⟨nameBlock (takeBlock memory flags length block).1 kind.code flags
        length (takeBlock memory flags length block).2, _, blocks',
        takenNonzero, ?_, ?_⟩
      · simp [extractBlocks, search, found, nonzero]
      · simp only [nameBlock]
        split
        · exact extracted.initializeToZero notFree
        · exact extracted

end HeapCluster

end NanoClr
