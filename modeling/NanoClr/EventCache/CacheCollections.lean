import NanoClr.EventCache.CacheInvariant

/-!
# Collections and the event cache

A collection empties the lists; what was on them is free afterwards, and the
blocks in the hands of the runtime stay where they are.
-/

namespace NanoClr

open HeapBlock HeapCluster

namespace EventCache

/-! ## Marks -/

/-- Marking keeps the types and sizes of all blocks. -/
theorem applyMarks_fields
    (marks : List (Nat × Bool))
    (memory : Memory)
    (block : Nat) :
    dataTypeCode (applyMarks memory marks) block =
        dataTypeCode memory block ∧
      dataSize (applyMarks memory marks) block = dataSize memory block := by
  induction marks generalizing memory with
  | nil => exact ⟨rfl, rfl⟩
  | cons mark rest inductionHypothesis =>
      obtain ⟨marked, alive⟩ := mark
      obtain ⟨sameType, sameSize⟩ := inductionHypothesis
        (if alive then markAlive memory marked else markDead memory marked)
      rw [applyMarks, sameType, sameSize]
      by_cases same : block = marked
      · subst same
        split <;>
          simp [markAlive, markDead, setFlags, resetFlags, dataTypeCode,
            dataSize, setDataId_same]
      · have untouched : (if alive then markAlive memory marked
            else markDead memory marked) block = memory block := by
          split
          · exact setFlags_other _ _ _ _ same
          · exact resetFlags_other _ _ _ _ same
        rw [dataTypeCode, dataSize, untouched]
        exact ⟨rfl, rfl⟩

/-- Marking touches the marked blocks only. -/
theorem applyMarks_other
    (marks : List (Nat × Bool))
    (memory : Memory)
    (address : Nat)
    (unmarked : ∀ mark ∈ marks, mark.1 ≠ address) :
    applyMarks memory marks address = memory address := by
  induction marks generalizing memory with
  | nil => rfl
  | cons mark rest inductionHypothesis =>
      obtain ⟨marked, alive⟩ := mark
      have different : address ≠ marked :=
        (unmarked (marked, alive) List.mem_cons_self).symm
      rw [applyMarks, inductionHypothesis _ fun other member =>
        unmarked other (List.mem_cons_of_mem _ member)]
      split
      · exact setFlags_other _ _ _ _ different
      · exact resetFlags_other _ _ _ _ different

/-! ## Freeing what is kept -/

/-- Nodes that take three words each and do not overlap become free. -/
theorem freeNodes_spec
    (nodes : List Nat)
    (memory : Memory)
    (apart : nodes.Pairwise fun left right =>
      left + 3 ≤ right ∨ right + 3 ≤ left) :
    (∀ node ∈ nodes, freeNodes memory nodes node =
        rawId DataType.freeBlock.code HB_Pinned (dataSize memory node)) ∧
      ∀ address, (∀ node ∈ nodes, address < node ∨ node + 3 ≤ address) →
        freeNodes memory nodes address = memory address := by
  induction nodes generalizing memory with
  | nil => exact ⟨by simp, fun _ _ => rfl⟩
  | cons ptr rest inductionHypothesis =>
      obtain ⟨apartHere, apartRest⟩ := List.pairwise_cons.mp apart
      let freed := clearData (setDataId memory ptr
        (rawId DataType.freeBlock.code HB_Pinned (dataSize memory ptr))) ptr
      have elsewhere (address : Nat)
          (away : address < ptr ∨ ptr + 3 ≤ address) :
          freed address = memory address := by
        simp (disch := omega) only [freed, clearData, setPrev, setNext,
          setDataId, Function.update_of_ne]
      have here : freed ptr =
          rawId DataType.freeBlock.code HB_Pinned (dataSize memory ptr) := by
        simp (disch := omega) only [freed, clearData, setPrev, setNext,
          setDataId, Function.update_of_ne, Function.update_self]
      obtain ⟨named, outside⟩ := inductionHypothesis freed apartRest
      change (∀ node ∈ ptr :: rest, freeNodes freed rest node = _) ∧
        ∀ address, _ → freeNodes freed rest address = _
      refine ⟨?_, ?_⟩
      · intro node member
        rcases List.mem_cons.mp member with rfl | later
        · rw [outside node fun other isOther => by
            have := apartHere other isOther
            omega]
          exact here
        · have := apartHere node later
          rw [named node later, dataSize, elsewhere node (by omega)]
          rfl
      · intro address away
        rw [outside address fun other isOther =>
          away other (List.mem_cons_of_mem _ isOther)]
        exact elsewhere address (away ptr List.mem_cons_self)

section Cleanup

variable {state : CacheState}

theorem mem_cachedBlocks {cache : BoundedLists} {block : Nat} :
    block ∈ cachedBlocks cache ↔ ∃ list, block ∈ cache.m_events list := by
  simp [cachedBlocks]

theorem mem_cachedBlocks_iff
    (invariant : CacheInvariant state)
    (block : Nat) :
    block ∈ cachedBlocks state.cache ↔
      InHeap state.heap block ∧
        dataType state.cache.memory block = some .cachedBlock := by
  rw [mem_cachedBlocks]
  constructor
  · rintro ⟨list, member⟩
    obtain ⟨inHeap, cached, _⟩ := (invariant.listed block list).mp member
    exact ⟨inHeap, cached⟩
  · rintro ⟨inHeap, cached⟩
    exact ⟨_, (invariant.listed block _).mpr ⟨inHeap, cached, rfl⟩⟩

theorem cachedBlocks_apart
    (invariant : CacheInvariant state) :
    (cachedBlocks state.cache).Pairwise fun left right =>
      left + 3 ≤ right ∨ right + 3 ≤ left := by
  have nodup : (cachedBlocks state.cache).Nodup := by
    rw [cachedBlocks, List.nodup_flatMap]
    refine ⟨fun list _ => invariant.once list, ?_⟩
    apply (List.nodup_finRange c_maxFastLists).imp
    intro left right different block isLeft isRight
    have leftIs := ((invariant.listed block left).mp isLeft).2.2
    have rightIs := ((invariant.listed block right).mp isRight).2.2
    exact different (leftIs.trans rightIs.symm)
  apply nodup.imp_of_mem
  intro left right isLeft isRight different
  have leftIn := ((mem_cachedBlocks_iff invariant left).mp isLeft).1
  have rightIn := ((mem_cachedBlocks_iff invariant right).mp isRight).1
  have leftWords := leftIn.words_pos invariant.wellFormed
  have rightWords := rightIn.words_pos invariant.wellFormed
  have apart := leftIn.apart invariant.wellFormed rightIn different
  omega

variable {marks : List (Nat × Bool)}

/-- Memory when the sweep of a collection starts. -/
def markedMemory (state : CacheState) (marks : List (Nat × Bool)) : Memory :=
  applyMarks (eventCacheCleanup state.cache).1.memory marks

variable
  (invariant : CacheInvariant state)
  (marked : ∀ mark ∈ marks, InHeap state.heap mark.1 ∧
    isEvent state.cache.memory mark.1 = false)

include invariant marked

/-- What was on a list is free and not marked. -/
theorem markedMemory_cached
    {block : Nat}
    (member : block ∈ cachedBlocks state.cache) :
    markedMemory state marks block =
      rawId DataType.freeBlock.code HB_Pinned
        (dataSize state.cache.memory block) := by
  rw [markedMemory, applyMarks_other]
  · exact (freeNodes_spec _ _ (cachedBlocks_apart invariant)).1 block member
  · rintro mark isMark rfl
    obtain ⟨list, isListed⟩ := mem_cachedBlocks.mp member
    have event :=
      (event_of_flags (invariant.flagged list mark.1 isListed)).1
    rw [(marked mark isMark).2] at event
    cases event

omit marked in
/-- Words that are not in a block on a list keep their value, up to marks. -/
theorem markedMemory_other
    (marks : List (Nat × Bool))
    {address : Nat}
    (away : ∀ node ∈ cachedBlocks state.cache,
      address < node ∨ node + 3 ≤ address) :
    dataTypeCode (markedMemory state marks) address =
        dataTypeCode state.cache.memory address ∧
      dataSize (markedMemory state marks) address =
        dataSize state.cache.memory address ∧
      ((∀ mark ∈ marks, mark.1 ≠ address) →
        markedMemory state marks address = state.cache.memory address) := by
  have same : (eventCacheCleanup state.cache).1.memory address =
      state.cache.memory address :=
    (freeNodes_spec _ _ (cachedBlocks_apart invariant)).2 address away
  obtain ⟨sameType, sameSize⟩ :=
    applyMarks_fields marks (eventCacheCleanup state.cache).1.memory address
  refine ⟨?_, ?_, fun unmarked => ?_⟩
  · rw [markedMemory, sameType, dataTypeCode, same]
    rfl
  · rw [markedMemory, sameSize, dataSize, same]
    rfl
  · rw [markedMemory, applyMarks_other _ _ _ unmarked, same]

omit marked in
/-- A block of a cluster that is on no list is apart from those that are. -/
theorem away_of_block
    {cluster : Nat}
    (member : cluster ∈ state.clusters)
    {blocks : List Nat}
    (own : WellFormed state.cache.memory cluster blocks)
    {block : Nat}
    (isBlock : block ∈ blocks)
    (unlisted : block ∉ cachedBlocks state.cache)
    {node : Nat}
    (isNode : node ∈ cachedBlocks state.cache) :
    block < node ∨ node + 3 ≤ block := by
  have nodeIn := ((mem_cachedBlocks_iff invariant node).mp isNode).1
  have positive := nodeIn.words_pos invariant.wellFormed
  cases free : isFree state.cache.memory block with
  | true =>
      have notInUse := invariant.wellFormed.laid.free_not_inUse member own.laid
        (mem_freeOf.mpr ⟨isBlock, free⟩)
      by_contra inside
      obtain ⟨home, homeMember, allocated⟩ := nodeIn
      exact notInUse (.inr ⟨home, homeMember, node, allocated, by omega,
        by omega⟩)
  | false =>
      have inHeap : InHeap state.heap block :=
        ⟨cluster, member, own.allocated_iff.mpr ⟨isBlock, free⟩⟩
      have different : block ≠ node := by
        rintro rfl
        exact unlisted isNode
      have blockPositive := inHeap.words_pos invariant.wellFormed
      have apart := inHeap.apart invariant.wellFormed nodeIn different
      omega

/-- The heap is still laid out when the sweep starts. -/
theorem markedMemory_laid
    {cluster : Nat}
    (member : cluster ∈ state.clusters)
    {blocks : List Nat}
    (own : WellFormed state.cache.memory cluster blocks) :
    Laid (markedMemory state marks) cluster blocks ∧
      ∀ address, cluster ≤ address → address < cluster + 8 →
        markedMemory state marks address = state.cache.memory address := by
  have header (address : Nat) (lower : cluster ≤ address)
      (upper : address < cluster + 8) :
      markedMemory state marks address = state.cache.memory address := by
    have notInUse := invariant.wellFormed.laid.header_not_inUse member lower
      upper
    have outside (block : Nat) (isIn : InHeap state.heap block) :
        address < block ∨ block + 3 ≤ address := by
      have positive := isIn.words_pos invariant.wellFormed
      obtain ⟨home, homeMember, allocated⟩ := isIn
      by_contra inside
      exact notInUse (.inr ⟨home, homeMember, block, allocated, by omega,
        by omega⟩)
    apply (markedMemory_other invariant marks fun node isNode =>
      outside node ((mem_cachedBlocks_iff invariant node).mp isNode).1).2.2
    rintro mark isMark rfl
    have := outside mark.1 (marked mark isMark).1
    omega
  refine ⟨own.laid.relabel header ?_ ?_, header⟩
  · intro block isBlock
    by_cases listed : block ∈ cachedBlocks state.cache
    · rw [dataSize, markedMemory_cached invariant marked listed, rawId_size]
      exact Nat.mod_eq_of_lt (dataSize_lt _ _)
    · exact (markedMemory_other invariant marks fun node isNode =>
        away_of_block invariant member own isBlock listed isNode).2.1
  · intro block isFreeNow
    obtain ⟨isBlock, free⟩ := mem_freeOf.mp isFreeNow
    by_cases listed : block ∈ cachedBlocks state.cache
    · have named := markedMemory_cached invariant marked listed
      rw [isAlive, isFlagSet, (named_fields named).2.1]
      decide
    · obtain ⟨sameType, _, unmarked⟩ :=
        markedMemory_other invariant marks fun node isNode =>
          away_of_block invariant member own isBlock listed isNode
      have wasFree : isFree state.cache.memory block = true := by
        rw [isFree, dataType, ← sameType]
        exact free
      have same := unmarked fun mark isMark isSame => by
        subst isSame
        obtain ⟨home, homeMember, allocated⟩ := (marked mark isMark).1
        have notFree := allocated.1
        change isFree state.cache.memory mark.1 = false at notFree
        rw [wasFree] at notFree
        cases notFree
      rw [isAlive, isFlagSet, (fields_congr same).2.1]
      exact own.laid.unmarked block (mem_freeOf.mpr ⟨isBlock, wasFree⟩)

theorem markedMemory_heapLaid :
    HeapLaid ⟨markedMemory state marks, state.clusters⟩ where
  clusters := by
    intro cluster member
    obtain ⟨blocks, own⟩ := invariant.wellFormed.clusters cluster member
    exact ⟨blocks, (markedMemory_laid invariant marked member own).1⟩
  separate := by
    apply invariant.wellFormed.separate.imp_of_mem
    intro left right leftMember rightMember apart
    obtain ⟨_, ownLeft⟩ := invariant.wellFormed.clusters left leftMember
    obtain ⟨_, ownRight⟩ := invariant.wellFormed.clusters right rightMember
    have leftEnd := (markedMemory_laid invariant marked leftMember ownLeft).2
      (left + 7) (by omega) (by omega)
    have rightEnd := (markedMemory_laid invariant marked rightMember
      ownRight).2 (right + 7) (by omega) (by omega)
    simp only [payloadEnd] at apart ⊢
    rw [leftEnd, rightEnd]
    exact apart

/-- What is in use when the sweep starts was in use before and on no list. -/
theorem markedMemory_inHeap (block : Nat) :
    InHeap ⟨markedMemory state marks, state.clusters⟩ block ↔
      InHeap state.heap block ∧ block ∉ cachedBlocks state.cache := by
  constructor
  · rintro ⟨cluster, member, allocated⟩
    obtain ⟨blocks, own⟩ := invariant.wellFormed.clusters cluster member
    have laid := (markedMemory_laid invariant marked member own).1
    obtain ⟨isBlock, used⟩ := laid.allocated_iff.mp allocated
    have unlisted : block ∉ cachedBlocks state.cache := by
      intro listed
      have named := markedMemory_cached invariant marked listed
      simp [isFree, (named_fields named).1] at used
    have sameType := (markedMemory_other invariant marks fun node isNode =>
      away_of_block invariant member own isBlock unlisted isNode).1
    refine ⟨⟨cluster, member, own.allocated_iff.mpr ⟨isBlock, ?_⟩⟩, unlisted⟩
    rw [isFree, dataType, sameType] at used
    exact used
  · rintro ⟨⟨cluster, member, allocated⟩, unlisted⟩
    obtain ⟨blocks, own⟩ := invariant.wellFormed.clusters cluster member
    have laid := (markedMemory_laid invariant marked member own).1
    obtain ⟨isBlock, used⟩ := own.allocated_iff.mp allocated
    have sameType := (markedMemory_other invariant marks fun node isNode =>
      away_of_block invariant member own isBlock unlisted isNode).1
    refine ⟨cluster, member, laid.allocated_iff.mpr ⟨isBlock, ?_⟩⟩
    rw [isFree, dataType, sameType]
    exact used

/-- Blocks in the hands of the runtime are not touched before the sweep. -/
theorem markedMemory_handed
    {block : Nat}
    (isHanded : block ∈ state.handedOut) :
    InHeap ⟨markedMemory state marks, state.clusters⟩ block ∧
      markedMemory state marks block = state.cache.memory block := by
  obtain ⟨inHeap, uncached, event, _⟩ := invariant.handed block isHanded
  have unlisted : block ∉ cachedBlocks state.cache := by
    intro listed
    exact uncached ((mem_cachedBlocks_iff invariant block).mp listed).2
  refine ⟨(markedMemory_inHeap invariant marked block).mpr
    ⟨inHeap, unlisted⟩, ?_⟩
  obtain ⟨cluster, member, allocated⟩ := inHeap
  obtain ⟨blocks, own⟩ := invariant.wellFormed.clusters cluster member
  have isBlock := (own.allocated_iff.mp allocated).1
  apply (markedMemory_other invariant marks fun node isNode =>
    away_of_block invariant member own isBlock unlisted isNode).2.2
  rintro mark isMark rfl
  rw [(marked mark isMark).2] at event
  cases event

/-- Memory after a collection. -/
theorem collect_spec :
    ∃ memory,
      recoverClusters (markedMemory state marks) state.clusters =
        some memory ∧
      HeapWellFormed ⟨memory, state.clusters⟩ ∧
      (∀ block, InHeap ⟨memory, state.clusters⟩ block →
        dataType memory block ≠ some .cachedBlock) ∧
      ∀ block ∈ state.handedOut, InHeap ⟨memory, state.clusters⟩ block ∧
        memory block = state.cache.memory block := by
  obtain ⟨memory, returns, swept⟩ :=
    recoverClusters_spec (markedMemory_heapLaid invariant marked)
  refine ⟨memory, returns, swept.wellFormed, ?_, ?_⟩
  · intro block isIn
    obtain ⟨before, alive⟩ := (swept.inHeap block).mp isIn
    obtain ⟨inHeap, unlisted⟩ :=
      (markedMemory_inHeap invariant marked block).mp before
    have id := swept.ids block before alive
    have swept := (sweptId_fields (markedMemory state marks) block).1
    obtain ⟨cluster, member, allocated⟩ := inHeap
    obtain ⟨blocks, own⟩ := invariant.wellFormed.clusters cluster member
    have isBlock := (own.allocated_iff.mp allocated).1
    have sameType := (markedMemory_other invariant marks fun node isNode =>
      away_of_block invariant member own isBlock unlisted isNode).1
    rw [dataType, dataTypeCode, id, swept]
    change DataType.ofCode (dataTypeCode _ _) ≠ _
    rw [sameType]
    intro cached
    exact unlisted ((mem_cachedBlocks_iff invariant block).mpr
      ⟨⟨cluster, member, allocated⟩, cached⟩)
  · intro block isHanded
    obtain ⟨_, _, event, alive⟩ := invariant.handed block isHanded
    obtain ⟨isIn, same⟩ := markedMemory_handed invariant marked isHanded
    have aliveNow : isAlive (markedMemory state marks) block = true := by
      rw [isAlive, isFlagSet, (fields_congr same).2.1]
      exact alive
    have eventNow : isEvent (markedMemory state marks) block = true := by
      rw [isEvent, isFlagSet, (fields_congr same).2.1]
      exact event
    refine ⟨(swept.inHeap block).mpr ⟨isIn, aliveNow⟩, ?_⟩
    rw [swept.ids block isIn aliveNow, sweptId, if_pos eventNow]
    exact same

end Cleanup

end EventCache

end NanoClr
