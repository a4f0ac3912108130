import NanoClr.EventCache.BoundedLists

/-!
# The invariant of the event cache

The blocks of the heap that have the type of cached blocks are exactly the ones
on the lists, each on the list for its size.
-/

namespace NanoClr

open HeapBlock HeapCluster

namespace EventCache

/-- The invariant of the cache. -/
structure CacheInvariant (state : CacheState) : Prop where
  wellFormed : HeapWellFormed state.heap
  listed : ∀ block list, block ∈ state.cache.m_events list ↔
    InHeap state.heap block ∧
      dataType state.cache.memory block = some .cachedBlock ∧
      list = listFor (dataSize state.cache.memory block)
  once : ∀ list, (state.cache.m_events list).Nodup
  flagged : ∀ list, ∀ block ∈ state.cache.m_events list,
    dataFlags state.cache.memory block = eventFlags
  handedOnce : state.handedOut.Nodup
  handed : ∀ block ∈ state.handedOut, InHeap state.heap block ∧
    dataType state.cache.memory block ≠ some .cachedBlock ∧
    isEvent state.cache.memory block = true ∧
    isAlive state.cache.memory block = true
  waiting : ∀ entry ∈ state.waiting, entry.1.Proper ∧ 1 ≤ entry.1.blocks

theorem CacheStart.invariant
    {state : CacheState}
    (start : CacheStart state) :
    CacheInvariant state where
  wellFormed := start.wellFormed
  listed := by
    intro block list
    rw [start.empty]
    constructor
    · simp
    · rintro ⟨inHeap, cached, _⟩
      exact absurd cached (start.uncached block inHeap)
  once := by simp [start.empty]
  flagged := by simp [start.empty]
  handedOnce := start.nodup
  handed := by
    intro block member
    obtain ⟨inHeap, event, alive⟩ := start.events block member
    exact ⟨inHeap, start.uncached block inHeap, event, alive⟩
  waiting := by simp [start.idle]

/-! ## Lists by size -/

theorem listFor_small
    {blocks : Nat}
    (small : blocks < c_maxFastLists) :
    listFor blocks = ⟨blocks, small⟩ := by
  rw [listFor, dif_pos small]

theorem listFor_large
    {blocks : Nat}
    (large : c_maxFastLists ≤ blocks) :
    listFor blocks = ⟨0, by decide⟩ := by
  rw [listFor, dif_neg (by omega)]

/-- The list of a block tells its size. -/
theorem listFor_eq_iff
    {blocks : Nat}
    (positive : 1 ≤ blocks)
    (list : Fin c_maxFastLists) :
    list = listFor blocks ↔
      if list.val = 0 then c_maxFastLists ≤ blocks else blocks = list.val := by
  by_cases small : blocks < c_maxFastLists
  · rw [listFor_small small, Fin.ext_iff]
    change list.val = blocks ↔ _
    split
    · omega
    · exact eq_comm
  · rw [listFor_large (by omega), Fin.ext_iff]
    have bound := list.isLt
    change list.val = 0 ↔ _
    split <;> omega

/-! ## Memory after one block is rewritten -/

section Relabel

variable {heap : Heap} {memory : Memory} {block : Nat} {kind : DataType}
  {flags size : Nat}

/-- A block in use may get another identity of its size, and other
contents. -/
theorem relabel_reshaped
    (wellFormed : HeapWellFormed heap)
    (inHeap : InHeap heap block)
    (notFree : kind ≠ .freeBlock)
    (elsewhere : ∀ address,
      address < block ∨ block + words heap.memory block ≤ address →
        memory address = heap.memory address)
    (named : memory block =
      rawId kind.code flags (dataSize heap.memory block)) :
    Reshaped heap memory block [block] := by
  have sameSize : dataSize memory block = dataSize heap.memory block := by
    have small := dataSize_lt heap.memory block
    rw [dataSize, named, rawId_size, Nat.mod_eq_of_lt small]
  have positive := inHeap.words_pos wellFormed
  have sameWords : words memory block = words heap.memory block := by
    rw [words, words, sameSize]
  apply wellFormed.reshape inHeap elsewhere
  · exact ⟨rfl, by omega, by rw [sameWords]; rfl⟩
  · intro other member
    rw [List.mem_singleton.mp member, isFree, dataType, dataTypeCode, named,
      rawId_dataType, Nat.mod_eq_of_lt kind.code_lt, DataType.ofCode_code]
    simpa using notFree

/-- The fields that a written identity has. -/
theorem named_fields
    (named : memory block = rawId kind.code flags size) :
    dataType memory block = some kind ∧
      dataFlags memory block = flags % 0x100 ∧
      dataSize memory block = size % 0x10000 := by
  refine ⟨?_, ?_, ?_⟩
  · rw [dataType, dataTypeCode, named, rawId_dataType,
      Nat.mod_eq_of_lt kind.code_lt, DataType.ofCode_code]
  · rw [dataFlags, named, rawId_flags]
  · rw [dataSize, named, rawId_size]

end Relabel

theorem event_of_flags
    {memory : Memory}
    {block : Nat}
    (flagged : dataFlags memory block = eventFlags) :
    isEvent memory block = true ∧ isAlive memory block = true := by
  rw [isEvent, isAlive, isFlagSet, isFlagSet, flagged]
  decide

/-! ## Giving a block back -/

section Append

variable {state : CacheState} {node : Nat}

/-- Memory after a block was given back. -/
theorem appendNode_reshaped
    (invariant : CacheInvariant state)
    (inHeap : InHeap state.heap node) :
    Reshaped state.heap (appendNode state.cache node).memory node [node] := by
  have positive := inHeap.words_pos invariant.wellFormed
  have named : (appendNode state.cache node).memory node =
      rawId DataType.cachedBlock.code eventFlags
        (dataSize state.heap.memory node) := setDataId_same _ _ _
  have notFree : DataType.cachedBlock ≠ .freeBlock := by decide
  refine relabel_reshaped invariant.wellFormed inHeap notFree ?_ named
  intro address outside
  exact setDataId_other _ _ _ _ (by omega)

/-- A block that is given back is on one list afterwards. -/
theorem appendNode_invariant
    (invariant : CacheInvariant state)
    (owned : node ∈ state.handedOut) :
    CacheInvariant
      { state with
        cache := appendNode state.cache node
        handedOut := state.handedOut.erase node } := by
  obtain ⟨inHeap, uncached, _⟩ := invariant.handed node owned
  have reshaped := appendNode_reshaped invariant inHeap
  have sameHeap := reshaped.inHeap_same inHeap
  have named : (appendNode state.cache node).memory node =
      rawId DataType.cachedBlock.code eventFlags
        (dataSize state.cache.memory node) := setDataId_same _ _ _
  obtain ⟨type, flags, size⟩ := named_fields named
  rw [Nat.mod_eq_of_lt (dataSize_lt _ _)] at size
  have unlisted (list : Fin c_maxFastLists) :
      node ∉ state.cache.m_events list := by
    intro member
    exact uncached ((invariant.listed node list).mp member).2.1
  have lists (list : Fin c_maxFastLists) :
      (appendNode state.cache node).m_events list =
        if list = listFor (dataSize state.cache.memory node) then
          state.cache.m_events list ++ [node]
        else
          state.cache.m_events list := by
    simp only [appendNode, linkAtBack, unlinkBlock, Function.update_apply]
    split
    · rename_i same
      rw [same, List.erase_of_not_mem (unlisted _)]
    · rw [List.erase_of_not_mem (unlisted _)]
  have mem_lists (block : Nat) (list : Fin c_maxFastLists) :
      block ∈ (appendNode state.cache node).m_events list ↔
        block ∈ state.cache.m_events list ∨
          block = node ∧
            list = listFor (dataSize state.cache.memory node) := by
    rw [lists]
    split
    · rename_i same
      simp [same]
    · rename_i different
      simp [different]
  exact {
    wellFormed := reshaped.wellFormed
    listed := by
      intro block list
      rw [mem_lists]
      refine Iff.trans ?_ (and_congr_left' (sameHeap block).symm)
      by_cases same : block = node
      · subst same
        simp only [type, size, unlisted, inHeap, true_and, false_or]
      · simp only [same, false_and, or_false]
        rw [invariant.listed]
        apply and_congr_right
        intro isIn
        obtain ⟨sameType, _, sameSize⟩ :=
          reshaped.fields invariant.wellFormed same isIn
        rw [sameType, sameSize]
        rfl
    once := by
      intro list
      rw [lists]
      split
      · exact (invariant.once list).append (List.nodup_singleton node)
          (by simpa using unlisted list)
      · exact invariant.once list
    flagged := by
      intro list block member
      rcases (mem_lists block list).mp member with isOld | ⟨rfl, _⟩
      · have different : block ≠ node := by
          rintro rfl
          exact unlisted list isOld
        have isIn := ((invariant.listed block list).mp isOld).1
        exact (reshaped.fields invariant.wellFormed different isIn).2.1.trans
          (invariant.flagged list block isOld)
      · exact flags
    handedOnce := invariant.handedOnce.erase node
    handed := by
      intro block member
      obtain ⟨different, isHanded⟩ :=
        invariant.handedOnce.mem_erase_iff.mp member
      obtain ⟨isIn, notCached, event, alive⟩ :=
        invariant.handed block isHanded
      obtain ⟨sameType, sameFlags, _⟩ :=
        reshaped.fields invariant.wellFormed different isIn
      refine ⟨(sameHeap block).mpr isIn, ?_, ?_, ?_⟩
      · exact sameType ▸ notCached
      · rw [isEvent, isFlagSet, sameFlags]
        exact event
      · rw [isAlive, isFlagSet, sameFlags]
        exact alive
    waiting := invariant.waiting }

end Append

/-! ## Handing a block out -/

/-- The invariant apart from one block that is about to be handed out. -/
structure InvariantBut (state : CacheState) (ptr : Nat) : Prop where
  wellFormed : HeapWellFormed state.heap
  inHeap : InHeap state.heap ptr
  listed : ∀ block list, block ≠ ptr →
    (block ∈ state.cache.m_events list ↔
      InHeap state.heap block ∧
        dataType state.cache.memory block = some .cachedBlock ∧
        list = listFor (dataSize state.cache.memory block))
  once : ∀ list, (state.cache.m_events list).Nodup
  flagged : ∀ list, ∀ block ∈ state.cache.m_events list, block ≠ ptr →
    dataFlags state.cache.memory block = eventFlags
  handedOnce : state.handedOut.Nodup
  handed : ∀ block ∈ state.handedOut, block ≠ ptr ∧
    InHeap state.heap block ∧
    dataType state.cache.memory block ≠ some .cachedBlock ∧
    isEvent state.cache.memory block = true ∧
    isAlive state.cache.memory block = true
  waiting : ∀ entry ∈ state.waiting, entry.1.Proper ∧ 1 ≤ entry.1.blocks

section Take

variable {state : CacheState} {ptr : Nat} {extraction : Extraction}

theorem CacheInvariant.but
    (invariant : CacheInvariant state)
    {list : Fin c_maxFastLists}
    (member : ptr ∈ state.cache.m_events list) :
    InvariantBut state ptr where
  wellFormed := invariant.wellFormed
  inHeap := ((invariant.listed ptr list).mp member).1
  listed block list _ := invariant.listed block list
  once := invariant.once
  flagged list block isListed _ := invariant.flagged list block isListed
  handedOnce := invariant.handedOnce
  handed := by
    intro block isHanded
    obtain ⟨inHeap, uncached, event⟩ := invariant.handed block isHanded
    refine ⟨?_, inHeap, uncached, event⟩
    rintro rfl
    exact uncached ((invariant.listed block list).mp member).2.1
  waiting := invariant.waiting

/-- Memory after a block was handed out. -/
theorem takeNode_reshaped
    (wellFormed : HeapWellFormed state.heap)
    (inHeap : InHeap state.heap ptr)
    (proper : extraction.Proper) :
    Reshaped state.heap (takeNode state.cache extraction ptr).memory ptr
        [ptr] ∧
      (takeNode state.cache extraction ptr).memory ptr =
        rawId extraction.dataType.code eventFlags
          (dataSize state.cache.memory ptr) := by
  have positive := inHeap.words_pos wellFormed
  have named : (takeNode state.cache extraction ptr).memory ptr =
      rawId extraction.dataType.code eventFlags
        (dataSize state.cache.memory ptr) := by
    rw [takeNode]
    split
    · simp only [initializeToZero, lt_self_iff_false, false_and, if_false]
      exact setDataId_same _ _ _
    · exact setDataId_same _ _ _
  refine ⟨relabel_reshaped wellFormed inHeap proper.1 ?_ named, named⟩
  intro address outside
  have notHere : address ≠ ptr := by
    rintro rfl
    simp only [CacheState.heap] at positive outside
    omega
  rw [takeNode]
  split
  · have sameWords : words (setDataId state.cache.memory ptr
        (rawId extraction.dataType.code eventFlags
          (dataSize state.cache.memory ptr))) ptr =
        words state.heap.memory ptr := by
      simp [words, Nat.mod_eq_of_lt (dataSize_lt state.cache.memory ptr),
        CacheState.heap]
    have notInside : ¬ (ptr < address ∧
        address < ptr + words state.heap.memory ptr) := by
      omega
    simp only [unlinkBlock, initializeToZero, sameWords, notInside, if_false]
    exact setDataId_other _ _ _ _ notHere
  · exact setDataId_other _ _ _ _ notHere

/-- A block that is handed out is on no list. -/
theorem takeNode_unlisted
    (once : ∀ list, (state.cache.m_events list).Nodup)
    (list : Fin c_maxFastLists) :
    ptr ∉ (takeNode state.cache extraction ptr).m_events list := by
  have unlisted := (once list).not_mem_erase (a := ptr)
  rw [takeNode]
  split <;> exact unlisted

/-- Handing a block out establishes the invariant. -/
theorem takeNode_invariant
    (invariant : InvariantBut state ptr)
    (proper : extraction.Proper) :
    CacheInvariant
      { state with
        cache := takeNode state.cache extraction ptr
        handedOut := ptr :: state.handedOut } := by
  obtain ⟨reshaped, named⟩ :=
    takeNode_reshaped invariant.wellFormed invariant.inHeap proper
  have sameHeap := reshaped.inHeap_same invariant.inHeap
  obtain ⟨type, flags, size⟩ := named_fields named
  have lists (list : Fin c_maxFastLists) :
      (takeNode state.cache extraction ptr).m_events list =
        (state.cache.m_events list).erase ptr := by
    rw [takeNode]
    split <;> rfl
  have mem_lists (block : Nat) (list : Fin c_maxFastLists) :
      block ∈ (takeNode state.cache extraction ptr).m_events list ↔
        block ≠ ptr ∧ block ∈ state.cache.m_events list := by
    rw [lists]
    exact (invariant.once list).mem_erase_iff
  exact {
    wellFormed := reshaped.wellFormed
    listed := by
      intro block list
      rw [mem_lists]
      refine Iff.trans ?_ (and_congr_left' (sameHeap block).symm)
      by_cases same : block = ptr
      · subst same
        simp only [type, ne_eq, not_true_eq_false, false_and, false_iff,
          Option.some.injEq, not_and]
        intro _ cached
        exact absurd cached proper.2
      · rw [invariant.listed block list same]
        simp only [ne_eq, same, not_false_eq_true, true_and]
        apply and_congr_right
        intro isIn
        obtain ⟨sameType, _, sameSize⟩ :=
          reshaped.fields invariant.wellFormed same isIn
        rw [sameType, sameSize]
        rfl
    once := by
      intro list
      rw [lists]
      exact (invariant.once list).erase ptr
    flagged := by
      intro list block member
      obtain ⟨different, isListed⟩ := (mem_lists block list).mp member
      have isIn := ((invariant.listed block list different).mp isListed).1
      exact (reshaped.fields invariant.wellFormed different isIn).2.1.trans
        (invariant.flagged list block isListed different)
    handedOnce := by
      refine List.nodup_cons.mpr ⟨?_, invariant.handedOnce⟩
      intro member
      exact (invariant.handed ptr member).1 rfl
    handed := by
      intro block member
      rcases List.mem_cons.mp member with rfl | isHanded
      · refine ⟨(sameHeap block).mpr invariant.inHeap, ?_,
          event_of_flags flags⟩
        rw [type, ne_eq, Option.some.injEq]
        exact proper.2
      · obtain ⟨different, isIn, notCached, event, alive⟩ :=
          invariant.handed block isHanded
        obtain ⟨sameType, sameFlags, _⟩ :=
          reshaped.fields invariant.wellFormed different isIn
        refine ⟨(sameHeap block).mpr isIn, ?_, ?_, ?_⟩
        · exact sameType ▸ notCached
        · rw [isEvent, isFlagSet, sameFlags]
          exact event
        · rw [isAlive, isFlagSet, sameFlags]
          exact alive
    waiting := invariant.waiting }

end Take

/-! ## Cutting a block in two -/

section Requeue

variable {state : CacheState} {ptr blocks : Nat}

/-- Memory after a block was cut in two: both parts are there, and they have
the size of the whole. -/
structure CutInTwo (state : CacheState) (memory : Memory) (ptr blocks : Nat) :
    Prop where
  reshaped : Reshaped state.heap memory ptr [ptr, ptr + 3 * blocks]
  fresh : ¬ InHeap state.heap (ptr + 3 * blocks)
  front : memory ptr = rawId DataType.cachedBlock.code eventFlags blocks
  tail : memory (ptr + 3 * blocks) =
    rawId DataType.cachedBlock.code eventFlags
      (dataSize state.cache.memory ptr - blocks)

/-- The sizes of the parts. -/
theorem CutInTwo.sizes
    {memory : Memory}
    (cut : CutInTwo state memory ptr blocks)
    (smaller : blocks < dataSize state.cache.memory ptr) :
    dataSize memory ptr = blocks ∧
      dataSize memory (ptr + 3 * blocks) =
        dataSize state.cache.memory ptr - blocks := by
  have bound := dataSize_lt state.cache.memory ptr
  refine ⟨(named_fields cut.front).2.2.trans ?_,
    (named_fields cut.tail).2.2.trans ?_⟩ <;>
  exact Nat.mod_eq_of_lt (by omega)

theorem requeueTail_cut
    (wellFormed : HeapWellFormed state.heap)
    (inHeap : InHeap state.heap ptr)
    (positive : 1 ≤ blocks)
    (smaller : blocks < dataSize state.cache.memory ptr) :
    CutInTwo state
      (requeueTail state.cache ptr blocks
        (dataSize state.cache.memory ptr)).memory ptr blocks := by
  generalize sizeIs : dataSize state.cache.memory ptr = size at smaller
  have bound := dataSize_lt state.cache.memory ptr
  have wholeWords : words state.heap.memory ptr = 3 * size := by
    rw [← sizeIs]
    rfl
  let memory := (requeueTail state.cache ptr blocks size).memory
  change CutInTwo state memory ptr blocks
  have tail : memory (ptr + 3 * blocks) =
      rawId DataType.cachedBlock.code eventFlags (size - blocks) := by
    simp only [memory, requeueTail, appendNode, linkAtBack, unlinkBlock,
      setDataId_same]
    simp (disch := omega) only [dataSize, clearData, setNext, setPrev,
      Function.update_of_ne, setDataId_same, rawId_size]
    rw [Nat.mod_eq_of_lt (by omega)]
  have front : memory ptr =
      rawId DataType.cachedBlock.code eventFlags blocks := by
    simp only [memory, requeueTail, appendNode, linkAtBack, unlinkBlock]
    simp (disch := omega) only [setDataId, clearData, setNext, setPrev,
      Function.update_of_ne, Function.update_self]
  have frontSize : dataSize memory ptr = blocks :=
    (named_fields front).2.2.trans (Nat.mod_eq_of_lt (by omega))
  have tailSize : dataSize memory (ptr + 3 * blocks) = size - blocks :=
    (named_fields tail).2.2.trans (Nat.mod_eq_of_lt (by omega))
  refine ⟨wellFormed.reshape inHeap ?_ ?_ ?_, ?_, front, sizeIs ▸ tail⟩
  · intro address outside
    rw [wholeWords] at outside
    simp only [memory, requeueTail, appendNode, linkAtBack, unlinkBlock]
    simp (disch := omega) only [setDataId, clearData, setNext, setPrev,
      Function.update_of_ne]
    rfl
  · apply HeapTiling.pair
    · rw [words, frontSize]
      omega
    · rw [words, frontSize]
    · rw [words, tailSize]
      omega
    · rw [words, tailSize, wholeWords]
      omega
  · intro other member
    have type : dataType memory other = some .cachedBlock := by
      rcases List.mem_pair.mp member with rfl | rfl
      · exact (named_fields front).1
      · exact (named_fields tail).1
    simp [isFree, type]
  · intro isIn
    have tailPositive := isIn.words_pos wellFormed
    obtain ⟨home, homeMember, allocated⟩ := inHeap
    obtain ⟨home', homeMember', allocated'⟩ := isIn
    have apart := wellFormed.laid.disjoint homeMember homeMember' allocated
      allocated' (by omega)
    omega

/-- The tail of a block on a list goes to the list for its own size. -/
theorem requeueTail_but
    (invariant : CacheInvariant state)
    {list : Fin c_maxFastLists}
    (member : ptr ∈ state.cache.m_events list)
    (positive : 1 ≤ blocks)
    (smaller : blocks < dataSize state.cache.memory ptr) :
    InvariantBut
      { state with
        cache := requeueTail state.cache ptr blocks
          (dataSize state.cache.memory ptr) } ptr := by
  obtain ⟨inHeap, cached, _⟩ := (invariant.listed ptr list).mp member
  have cut := requeueTail_cut invariant.wellFormed inHeap positive smaller
  obtain ⟨_, tailSize⟩ := cut.sizes smaller
  have unlisted (other : Fin c_maxFastLists) :
      ptr + 3 * blocks ∉ state.cache.m_events other := by
    intro isListed
    exact cut.fresh ((invariant.listed _ other).mp isListed).1
  let cache := requeueTail state.cache ptr blocks
    (dataSize state.cache.memory ptr)
  have lists (other : Fin c_maxFastLists) :
      cache.m_events other =
        if other = listFor (dataSize state.cache.memory ptr - blocks) then
          state.cache.m_events other ++ [ptr + 3 * blocks]
        else
          state.cache.m_events other := by
    have bound := dataSize_lt state.cache.memory ptr
    have written : dataSize (clearData (setDataId (setDataId
        state.cache.memory ptr (rawId DataType.cachedBlock.code eventFlags
          blocks)) (ptr + 3 * blocks) (rawId DataType.cachedBlock.code
        eventFlags (dataSize state.cache.memory ptr - blocks)))
        (ptr + 3 * blocks)) (ptr + 3 * blocks) =
        dataSize state.cache.memory ptr - blocks := by
      rw [dataSize]
      simp (disch := omega) only [clearData, setNext, setPrev,
        Function.update_of_ne, setDataId_same, rawId_size]
      exact Nat.mod_eq_of_lt (by omega)
    simp only [cache, requeueTail, appendNode, linkAtBack, unlinkBlock,
      written, Function.update_apply]
    split
    · rename_i same
      rw [same, List.erase_of_not_mem (unlisted _)]
    · rw [List.erase_of_not_mem (unlisted _)]
  have mem_lists (block : Nat) (other : Fin c_maxFastLists) :
      block ∈ cache.m_events other ↔
        block ∈ state.cache.m_events other ∨
          block = ptr + 3 * blocks ∧
            other = listFor (dataSize state.cache.memory ptr - blocks) := by
    rw [lists]
    split
    · rename_i same
      simp [same]
    · rename_i different
      simp [different]
  have fields {block : Nat} (different : block ≠ ptr)
      (isIn : InHeap state.heap block) :=
    cut.reshaped.fields invariant.wellFormed different isIn
  have stays {block : Nat} (different : block ≠ ptr)
      (isIn : InHeap state.heap block) :
      InHeap ⟨cache.memory, state.clusters⟩ block :=
    (cut.reshaped.inHeap block).mpr (.inr ⟨different, isIn⟩)
  exact {
    wellFormed := cut.reshaped.wellFormed
    inHeap := (cut.reshaped.inHeap ptr).mpr (.inl (by simp))
    listed := by
      intro block other different
      rw [mem_lists]
      change _ ↔ InHeap ⟨cache.memory, state.clusters⟩ block ∧
        dataType cache.memory block = some .cachedBlock ∧
        other = listFor (dataSize cache.memory block)
      by_cases isTail : block = ptr + 3 * blocks
      · subst isTail
        have isIn : InHeap ⟨cache.memory, state.clusters⟩ (ptr + 3 * blocks) :=
          (cut.reshaped.inHeap _).mpr (.inl (by simp))
        have type : dataType cache.memory (ptr + 3 * blocks) =
            some .cachedBlock := (named_fields cut.tail).1
        have size : dataSize cache.memory (ptr + 3 * blocks) =
            dataSize state.cache.memory ptr - blocks := tailSize
        simp only [unlisted, isIn, type, size, true_and, false_or]
      · simp only [isTail, false_and, or_false]
        rw [invariant.listed]
        constructor
        · rintro ⟨isIn, rest⟩
          obtain ⟨sameType, _, sameSize⟩ := fields different isIn
          rw [sameType, sameSize]
          exact ⟨stays different isIn, rest⟩
        · rintro ⟨isIn, rest⟩
          rcases (cut.reshaped.inHeap block).mp isIn with isPart | ⟨_, isIn⟩
          · rcases List.mem_pair.mp isPart with same | same
            · exact absurd same different
            · exact absurd same isTail
          · obtain ⟨sameType, _, sameSize⟩ := fields different isIn
            rw [sameType, sameSize] at rest
            exact ⟨isIn, rest⟩
    once := by
      intro other
      change (cache.m_events other).Nodup
      rw [lists]
      split
      · exact (invariant.once other).append (List.nodup_singleton _)
          (by simpa using unlisted other)
      · exact invariant.once other
    flagged := by
      intro other block isListed different
      rcases (mem_lists block other).mp isListed with isOld | ⟨rfl, _⟩
      · have isIn := ((invariant.listed block other).mp isOld).1
        exact (fields different isIn).2.1.trans
          (invariant.flagged other block isOld)
      · exact (named_fields cut.tail).2.1
    handedOnce := invariant.handedOnce
    handed := by
      intro block isHanded
      obtain ⟨isIn, notCached, event, alive⟩ :=
        invariant.handed block isHanded
      have different : block ≠ ptr := by
        rintro rfl
        exact notCached cached
      obtain ⟨sameType, sameFlags, _⟩ := fields different isIn
      refine ⟨different, stays different isIn, ?_, ?_, ?_⟩
      · exact sameType ▸ notCached
      · rw [isEvent, isFlagSet, sameFlags]
        exact event
      · rw [isAlive, isFlagSet, sameFlags]
        exact alive
    waiting := invariant.waiting }

end Requeue

end EventCache

end NanoClr
