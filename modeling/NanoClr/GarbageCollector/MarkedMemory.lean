import NanoClr.GarbageCollector.ObjectGraph

/-!
# Memory while the collector marks

Marking changes the marks of the blocks that are visited, and the links of the
weak delegate lists among them; everything that the collector reads of a block
stays as it was.
-/

namespace NanoClr

open HeapBlock HeapCluster

/-! ## Single writes -/

section Writes

variable (memory : Memory) (block : Nat)

theorem isEvent_markAlive (other : Nat) :
    isEvent (markAlive memory block) other = isEvent memory other := by
  have bits : ∀ flags < 0x100,
      ((flags ||| HB_Alive) % 0x100 &&& HB_Event != 0) =
        (flags &&& HB_Event != 0) := by
    decide +kernel
  by_cases same : other = block
  · subst same
    rw [isEvent, isFlagSet, markAlive, setFlags, dataFlags, setDataId_same,
      rawId_flags]
    exact bits _ (dataFlags_lt memory other)
  · rw [isEvent, isFlagSet,
      (fields_congr (markAlive_other memory block other same)).2.1]
    rfl

/-- The fields of an identity that do not depend on the mark. -/
theorem sameType_markAlive (other : Nat) :
    dataTypeCode (markAlive memory block) other = dataTypeCode memory other ∧
      dataSize (markAlive memory block) other = dataSize memory other := by
  by_cases same : other = block
  · subst same
    have marks := SameButMark.markAlive memory other
    exact ⟨marks.type, marks.size⟩
  · have sameId := markAlive_other memory block other same
    exact ⟨by rw [dataTypeCode, dataTypeCode, sameId], (fields_congr sameId).2.2⟩

/-- Linking a weak delegate list, whose links were cleared, at the back. -/
theorem linkAtBack_clearData
    {list : Nat}
    (nonzero : block ≠ 0)
    (listNonzero : list ≠ 0)
    (different : block ≠ list)
    (apart : list + 2 ≠ block + 1) :
    linkAtBack (clearData memory block) list block =
      insertNode (clearData memory block) (memory (list + 2)) list block := by
  have cleared : removeFromList (clearData memory block) block =
      clearData memory block := by
    simp [removeFromList, clearData, prev, next, setPrev, setNext]
  have before : prev (clearData memory block) list = memory (list + 2) := by
    simp only [prev, clearData, setPrev, setNext]
    rw [Function.update_of_ne (by omega), Function.update_of_ne apart]
  rw [linkAtBack, insertBeforeNode, tail,
    if_pos ⟨listNonzero, nonzero, different.symm⟩]
  simp only [cleared, before]

/-- Linking writes the links of the node and of its neighbours only. -/
theorem insertNode_clearData_other
    {list before address : Nat}
    (notNext : address ≠ block + 1)
    (notPrev : address ≠ block + 2)
    (notTail : address ≠ list + 2)
    (notBefore : address ≠ before + 1) :
    insertNode (clearData memory block) before list block address =
      memory address := by
  simp only [insertNode, clearData, setPrev, setNext]
  rw [Function.update_of_ne notBefore, Function.update_of_ne notTail,
    Function.update_of_ne notPrev, Function.update_of_ne notNext,
    Function.update_of_ne notPrev, Function.update_of_ne notNext]

end Writes

namespace GarbageCollector

/-- Memory while a collection is under way: what was visited is marked, and
all else that the collector reads is as it was. -/
structure Marked
    (input : MarkInput)
    (visited : Nat → Prop)
    (memory : Memory) : Prop where
  laid : HeapLaid ⟨memory, input.clusters⟩
  bounds : ∀ cluster ∈ input.clusters,
    payloadStart memory cluster = payloadStart input.memory cluster ∧
      payloadEnd memory cluster = payloadEnd input.memory cluster
  inUse : ∀ address, InUse input.heap address →
    InUse ⟨memory, input.clusters⟩ address
  objects : ∀ cluster ∈ input.clusters, ∀ block,
    (Allocated memory cluster block ∧ isEvent memory block = false) ↔
      (Allocated input.memory cluster block ∧
        isEvent input.memory block = false)
  same : ∀ block, Reached input block →
    dataTypeCode memory block = dataTypeCode input.memory block ∧
      dataSize memory block = dataSize input.memory block
  header : ∀ block, Reached input block →
    ∀ offset, 0 < offset → offset < headerWords input.memory block →
      (isWeakDelegateList input.memory block = true → 3 ≤ offset) →
        memory (block + offset) = input.memory (block + offset)
  alive : ∀ block, Reached input block →
    (isAlive memory block = true ↔
      isAlive input.memory block = true ∨ visited block)
  unreached : ∀ block, IsObject input.heap block → ¬ Reached input block →
    isAlive memory block = false
  last : memory (input.weakDelegatesReachable + 2) =
      head input.weakDelegatesReachable ∨
    (Reached input (memory (input.weakDelegatesReachable + 2)) ∧
      isWeakDelegateList input.memory
        (memory (input.weakDelegatesReachable + 2)) = true)

namespace Marked

variable
  {input : MarkInput}
  {visited : Nat → Prop}
  {memory : Memory}
  {block : Nat}

/-! ## What the collector reads -/

section Reads

variable (marked : Marked input visited memory) (reached : Reached input block)

include marked reached

theorem dataType : dataType memory block = HeapBlock.dataType input.memory
    block := by
  rw [HeapBlock.dataType, HeapBlock.dataType, (marked.same block reached).1]

theorem isWeakDelegateList :
    isWeakDelegateList memory block =
      NanoClr.isWeakDelegateList input.memory block := by
  unfold NanoClr.isWeakDelegateList
  rw [marked.dataType reached]
  by_cases isList :
      HeapBlock.dataType input.memory block = some .delegateListHead
  · have bound : 5 < headerWords input.memory block := by
      simp [headerWords, isList]
    have flags : HeapBlockDelegateList.isWeak memory block =
        HeapBlockDelegateList.isWeak input.memory block := by
      unfold HeapBlockDelegateList.isWeak HeapBlockDelegateList.flags
      rw [marked.header block reached 5 (by decide) bound (fun _ => by decide)]
    rw [flags]
  · simp [isList]

theorem target : target memory block = NanoClr.target input.memory block := by
  unfold NanoClr.target
  rw [marked.dataType reached]
  have word (notList : HeapBlock.dataType input.memory block ≠
      some .delegateListHead) :
      dereference memory block = dereference input.memory block := by
    apply marked.header block reached 1 (by decide)
    · have := headerWords_bounds input.memory block
      omega
    · intro weak
      simp [NanoClr.isWeakDelegateList, notList] at weak
  split
  · rename_i isObject
    exact word (by simp [isObject])
  · rename_i isByRef
    exact word (by simp [isByRef])
  · rename_i isArrayByRef
    exact word (by simp [isArrayByRef])
  · rfl

theorem fieldRange :
    fieldRange memory block = NanoClr.fieldRange input.memory block := by
  have word (offset : Nat) (positive : 3 ≤ offset)
      (bound : offset < headerWords input.memory block) :
      memory (block + offset) = input.memory (block + offset) :=
    marked.header block reached offset (by omega) bound (fun _ => positive)
  unfold NanoClr.fieldRange
  rw [marked.dataType reached, (marked.same block reached).2]
  split
  · rfl
  · rfl
  · rename_i isArray
    have bound : headerWords input.memory block = 5 := by
      simp [headerWords, isArray]
    have references : HeapBlockArray.fReference memory block =
        HeapBlockArray.fReference input.memory block := by
      unfold HeapBlockArray.fReference
      rw [word 4 (by decide) (by omega)]
    have elements : HeapBlockArray.numOfElements memory block =
        HeapBlockArray.numOfElements input.memory block :=
      word 3 (by decide) (by omega)
    rw [references, elements]
  · rfl
  · rename_i isList
    have bound : headerWords input.memory block = 6 := by
      simp [headerWords, isList]
    have flags : HeapBlockDelegateList.isWeak memory block =
        HeapBlockDelegateList.isWeak input.memory block := by
      unfold HeapBlockDelegateList.isWeak HeapBlockDelegateList.flags
      rw [word 5 (by decide) (by omega)]
    have length : HeapBlockDelegateList.length memory block =
        HeapBlockDelegateList.length input.memory block :=
      word 4 (by decide) (by omega)
    rw [flags, length]
  · rfl

end Reads

/-! ## Writes -/

/-- A word of a block that is reached is in use. -/
theorem wordInUse
    (marked : Marked input visited memory)
    (graph : GraphWellFormed input)
    (reached : Reached input block)
    {offset : Nat}
    (bound : offset < 3) :
    InUse ⟨memory, input.clusters⟩ (block + offset) := by
  apply marked.inUse
  apply graph.inUse block reached
  have := headerWords_bounds input.memory block
  omega

/-- Marking a block that is reached. -/
theorem markAlive
    (marked : Marked input visited memory)
    (graph : GraphWellFormed input)
    (reached : Reached input block) :
    Marked input (fun other => visited other ∨ other = block)
      (markAlive memory block) := by
  have other (address : Nat) (different : address ≠ block) :=
    markAlive_other memory block address different
  have rewrites : Rewrites ⟨memory, input.clusters⟩
      (HeapBlock.markAlive memory block) := by
    refine ⟨?_, fun _ _ _ _ => sameType_markAlive memory block _⟩
    intro address unused
    apply other
    rintro rfl
    exact unused (marked.wordInUse graph reached (by decide : 0 < 3))
  have bounds (cluster : Nat) (member : cluster ∈ input.clusters) :=
    rewrites.bounds marked.laid member
  have lastWord : HeapBlock.markAlive memory block
      (input.weakDelegatesReachable + 2) =
        memory (input.weakDelegatesReachable + 2) := by
    apply other
    have := graph.sentinelApart block reached
    have := headerWords_bounds input.memory block
    omega
  refine {
    laid := rewrites.laid marked.laid
    bounds := fun cluster member =>
      ⟨(bounds cluster member).1.trans (marked.bounds cluster member).1,
        (bounds cluster member).2.trans (marked.bounds cluster member).2⟩
    inUse := fun address used =>
      (rewrites.inUse_iff marked.laid address).mpr (marked.inUse address used)
    objects := ?_
    same := ?_
    header := ?_
    alive := ?_
    unreached := ?_
    last := by
      rw [lastWord]
      exact marked.last }
  · intro cluster member used
    rw [rewrites.allocated_iff marked.laid member, isEvent_markAlive]
    exact marked.objects cluster member used
  · intro used reachedUsed
    obtain ⟨sameType, sameSize⟩ := sameType_markAlive memory block used
    obtain ⟨type, size⟩ := marked.same used reachedUsed
    exact ⟨sameType.trans type, sameSize.trans size⟩
  · intro used reachedUsed offset positive bound notLink
    rw [other]
    · exact marked.header used reachedUsed offset positive bound notLink
    · by_cases same : used = block
      · omega
      · have := graph.apart used block reachedUsed reached same
        omega
  · intro used reachedUsed
    by_cases same : used = block
    · subst same
      simp [isAlive_markAlive]
    · rw [isAlive, isFlagSet, (fields_congr (other used same)).2.1]
      have before := marked.alive used reachedUsed
      rw [isAlive, isFlagSet] at before
      rw [before]
      simp [same]
  · intro used isObject notReached
    have different : used ≠ block := by
      rintro rfl
      exact notReached reached
    rw [isAlive, isFlagSet, (fields_congr (other used different)).2.1]
    exact marked.unreached used isObject notReached

/-- No block starts inside the first three words of an object. -/
theorem object_span
    (marked : Marked input visited memory)
    (isObject : IsObject input.heap block)
    {cluster other : Nat}
    (member : cluster ∈ input.clusters)
    (allocated : Allocated memory cluster other) :
    other ≠ block + 1 ∧ other ≠ block + 2 := by
  obtain ⟨notEvent, home, homeMember, isAllocated⟩ := isObject
  have stays := ((marked.objects home homeMember block).mpr
    ⟨isAllocated, notEvent⟩).1
  obtain ⟨blocks, own⟩ := marked.laid.clusters home homeMember
  have place := own.place (own.allocated_iff.mp stays).1
  by_cases same : other = block
  · omega
  · have := marked.laid.disjoint member homeMember allocated stays same
    simp only at this place
    omega

/-- The words of the list of weak delegate lists are outside the clusters. -/
theorem sentinel_outside
    (marked : Marked input visited memory)
    (graph : GraphWellFormed input)
    {offset : Nat}
    (bound : offset < 3) :
    InUse ⟨memory, input.clusters⟩ (input.weakDelegatesReachable + offset) ∧
      ∀ cluster ∈ input.clusters, ∀ other, Allocated memory cluster other →
        other ≠ input.weakDelegatesReachable + offset := by
  have outside (cluster : Nat) (member : cluster ∈ input.clusters) :
      input.weakDelegatesReachable + offset < cluster ∨
        payloadEnd memory cluster ≤ input.weakDelegatesReachable + offset := by
    rw [(marked.bounds cluster member).2]
    exact graph.sentinelOutside cluster member offset bound
  refine ⟨.inl outside, ?_⟩
  intro cluster member other allocated
  obtain ⟨blocks, own⟩ := marked.laid.clusters cluster member
  have place := own.place (own.allocated_iff.mp allocated).1
  have := outside cluster member
  simp only at place
  omega

/-- A word that linking a weak delegate list writes: a link of the list, of the
tail or of the node that was the last one. -/
def Links (input : MarkInput) (memory : Memory) (block address : Nat) : Prop :=
  address = block + 1 ∨ address = block + 2 ∨
    address = input.weakDelegatesReachable + 2 ∨
    address = memory (input.weakDelegatesReachable + 2) + 1

/-- The words that linking writes are in use, start no block, and are not read
as anything but links. -/
theorem links_spec
    (marked : Marked input visited memory)
    (graph : GraphWellFormed input)
    (reached : Reached input block)
    (isWeak : NanoClr.isWeakDelegateList input.memory block = true)
    {address : Nat}
    (links : Links input memory block address) :
    InUse ⟨memory, input.clusters⟩ address ∧
    (∀ cluster ∈ input.clusters, ∀ other, Allocated memory cluster other →
      other ≠ address) ∧
    (∀ other, Reached input other →
      ∀ offset < headerWords input.memory other, address = other + offset →
        0 < offset ∧ offset < 3 ∧
          NanoClr.isWeakDelegateList input.memory other = true) := by
  have node (used : Nat) (reachedUsed : Reached input used)
      (weak : NanoClr.isWeakDelegateList input.memory used = true)
      (offset : Nat) (isLink : offset = 1 ∨ offset = 2) :
      InUse ⟨memory, input.clusters⟩ (used + offset) ∧
      (∀ cluster ∈ input.clusters, ∀ other, Allocated memory cluster other →
        other ≠ used + offset) ∧
      (∀ other, Reached input other →
        ∀ index < headerWords input.memory other, used + offset = other + index →
          0 < index ∧ index < 3 ∧
            NanoClr.isWeakDelegateList input.memory other = true) := by
    refine ⟨marked.wordInUse graph reachedUsed (by omega), ?_, ?_⟩
    · intro cluster member other allocated
      have span := marked.object_span (graph.owners used reachedUsed (.inr weak))
        member allocated
      omega
    · intro other reachedOther index bound equal
      by_cases same : other = used
      · subst same
        exact ⟨by omega, by omega, weak⟩
      · have := graph.apart other used reachedOther reachedUsed same
        omega
  have sentinel (offset : Nat) (bound : offset < 3) :
      InUse ⟨memory, input.clusters⟩ (input.weakDelegatesReachable + offset) ∧
      (∀ cluster ∈ input.clusters, ∀ other, Allocated memory cluster other →
        other ≠ input.weakDelegatesReachable + offset) ∧
      (∀ other, Reached input other →
        ∀ index < headerWords input.memory other,
          input.weakDelegatesReachable + offset = other + index →
          0 < index ∧ index < 3 ∧
            NanoClr.isWeakDelegateList input.memory other = true) := by
    obtain ⟨used, notHead⟩ := marked.sentinel_outside graph bound
    refine ⟨used, notHead, ?_⟩
    intro other reachedOther index indexBound equal
    have := graph.sentinelApart other reachedOther
    omega
  rcases links with rfl | rfl | rfl | isBefore
  · exact node block reached isWeak 1 (.inl rfl)
  · exact node block reached isWeak 2 (.inr rfl)
  · exact sentinel 2 (by decide)
  · rcases marked.last with isHead | ⟨reachedBefore, weakBefore⟩
    · have isFirst : address = input.weakDelegatesReachable + 0 := by
        have := graph.sentinel
        rw [isBefore, isHead, head]
        omega
      rw [isFirst]
      exact sentinel 0 (by decide)
    · rw [isBefore]
      exact node _ reachedBefore weakBefore 1 (.inl rfl)

/-- Linking a weak delegate list that is reached. -/
theorem link
    (marked : Marked input visited memory)
    (graph : GraphWellFormed input)
    (reached : Reached input block)
    (isWeak : NanoClr.isWeakDelegateList input.memory block = true) :
    linkAtBack (clearData memory block) input.weakDelegatesReachable block =
      insertNode (clearData memory block)
        (memory (input.weakDelegatesReachable + 2))
        input.weakDelegatesReachable block ∧
    Marked input visited (insertNode (clearData memory block)
      (memory (input.weakDelegatesReachable + 2))
      input.weakDelegatesReachable block) := by
  have listApart := graph.sentinelApart block reached
  have headerBounds := headerWords_bounds input.memory block
  have listNonzero := graph.sentinel
  obtain ⟨notEvent, home, homeMember, isAllocated⟩ :=
    graph.owners block reached (.inr isWeak)
  have nonzero : block ≠ 0 := by
    obtain ⟨blocks, own⟩ := graph.laid.clusters home homeMember
    have := own.place (own.allocated_iff.mp isAllocated).1
    omega
  refine ⟨linkAtBack_clearData memory block nonzero listNonzero (by omega)
    (by omega), ?_⟩
  have other {address : Nat} (notLink : ¬ Links input memory block address) :
      insertNode (clearData memory block)
        (memory (input.weakDelegatesReachable + 2))
        input.weakDelegatesReachable block address = memory address := by
    simp only [Links, not_or] at notLink
    exact insertNode_clearData_other memory block notLink.1 notLink.2.1
      notLink.2.2.1 notLink.2.2.2
  have notHead {cluster : Nat} (member : cluster ∈ input.clusters)
      {used : Nat} (allocated : Allocated memory cluster used) :
      ¬ Links input memory block used := fun links =>
    (marked.links_spec graph reached isWeak links).2.1 cluster member used
      allocated rfl
  have notId {used : Nat} (reachedUsed : Reached input used) :
      ¬ Links input memory block used := by
    intro links
    have bounds := headerWords_bounds input.memory used
    have := (marked.links_spec graph reached isWeak links).2.2 used reachedUsed
      0 (by omega) rfl
    omega
  have lastWord : insertNode (clearData memory block)
      (memory (input.weakDelegatesReachable + 2)) input.weakDelegatesReachable
      block (input.weakDelegatesReachable + 2) = block := by
    have different : input.weakDelegatesReachable + 2 ≠
        memory (input.weakDelegatesReachable + 2) + 1 := by
      rcases marked.last with isHead | ⟨reachedBefore, _⟩
      · rw [isHead, head]
        omega
      · have := graph.sentinelApart _ reachedBefore
        have := headerWords_bounds input.memory
          (memory (input.weakDelegatesReachable + 2))
        omega
    simp only [insertNode, setNext, setPrev]
    rw [Function.update_of_ne different, Function.update_self]
  generalize insertNode (clearData memory block)
    (memory (input.weakDelegatesReachable + 2)) input.weakDelegatesReachable
    block = memory' at other lastWord
  have rewrites : Rewrites ⟨memory, input.clusters⟩ memory' := by
    refine ⟨?_, ?_⟩
    · intro address unused
      apply other
      intro links
      exact unused (marked.links_spec graph reached isWeak links).1
    · intro cluster member used allocated
      have sameId := other (notHead member allocated)
      exact ⟨by rw [dataTypeCode, dataTypeCode, sameId],
        (fields_congr sameId).2.2⟩
  have bounds (cluster : Nat) (member : cluster ∈ input.clusters) :=
    rewrites.bounds marked.laid member
  refine {
    laid := rewrites.laid marked.laid
    bounds := fun cluster member =>
      ⟨(bounds cluster member).1.trans (marked.bounds cluster member).1,
        (bounds cluster member).2.trans (marked.bounds cluster member).2⟩
    inUse := fun address used =>
      (rewrites.inUse_iff marked.laid address).mpr (marked.inUse address used)
    objects := ?_
    same := ?_
    header := ?_
    alive := ?_
    unreached := ?_
    last := by
      rw [lastWord]
      exact .inr ⟨reached, isWeak⟩ }
  · intro cluster member used
    rw [rewrites.allocated_iff marked.laid member, ← marked.objects cluster
      member used]
    apply and_congr_right
    intro allocated
    rw [isEvent, isFlagSet, (fields_congr (other (notHead member allocated))).2.1]
    rfl
  · intro used reachedUsed
    have sameId := other (notId reachedUsed)
    obtain ⟨type, size⟩ := marked.same used reachedUsed
    exact ⟨by rw [dataTypeCode, sameId]; exact type,
      (fields_congr sameId).2.2.trans size⟩
  · intro used reachedUsed offset positive bound notLink
    rw [other]
    · exact marked.header used reachedUsed offset positive bound notLink
    · intro links
      obtain ⟨_, small, weak⟩ :=
        (marked.links_spec graph reached isWeak links).2.2 used reachedUsed
          offset bound rfl
      have := notLink weak
      omega
  · intro used reachedUsed
    rw [← marked.alive used reachedUsed, isAlive, isFlagSet,
      (fields_congr (other (notId reachedUsed))).2.1]
    rfl
  · intro used isObject notReached
    obtain ⟨usedNotEvent, cluster, member, allocated⟩ := id isObject
    have stays := ((marked.objects cluster member used).mpr
      ⟨allocated, usedNotEvent⟩).1
    rw [isAlive, isFlagSet, (fields_congr (other (notHead member stays))).2.1]
    exact marked.unreached used isObject notReached

/-- An allocation leaves all that was marked. -/
theorem allocate
    (marked : Marked input visited memory)
    (graph : GraphWellFormed input)
    {memory' : Memory}
    (allocates : Allocates ⟨memory, input.clusters⟩ memory') :
    Marked input visited memory' := by
  have kept {address : Nat} (used : InUse input.heap address) :
      memory' address = memory address :=
    (allocates.kept address (marked.inUse address used)).1
  have sameId {used : Nat} (reachedUsed : Reached input used) :
      memory' used = memory used := by
    have bounds := headerWords_bounds input.memory used
    exact kept (graph.inUse used reachedUsed 0 (by omega))
  have allocatedId {cluster used : Nat} (member : cluster ∈ input.clusters)
      (allocated : Allocated memory cluster used) :
      memory' used = memory used := by
    obtain ⟨blocks, own⟩ := marked.laid.clusters cluster member
    have place := own.place (own.allocated_iff.mp allocated).1
    exact (allocates.kept used (.inr ⟨cluster, member, used, allocated,
      Nat.le_refl _, by omega⟩)).1
  have lastWord : memory' (input.weakDelegatesReachable + 2) =
      memory (input.weakDelegatesReachable + 2) :=
    (allocates.kept _ (marked.sentinel_outside graph (by decide)).1).1
  refine {
    laid := allocates.laid
    bounds := fun cluster member =>
      ⟨(allocates.bounds cluster member).1.trans (marked.bounds cluster member).1,
        (allocates.bounds cluster member).2.trans
          (marked.bounds cluster member).2⟩
    inUse := fun address used =>
      (allocates.kept address (marked.inUse address used)).2
    objects := ?_
    same := ?_
    header := ?_
    alive := ?_
    unreached := ?_
    last := by
      rw [lastWord]
      exact marked.last }
  · intro cluster member used
    rw [← marked.objects cluster member used]
    constructor
    · rintro ⟨allocated, notEvent⟩
      rcases allocates.fresh cluster member used allocated with isOld | isNew
      · refine ⟨isOld, ?_⟩
        rw [← notEvent, isEvent, isEvent, isFlagSet, isFlagSet,
          (fields_congr (allocatedId member isOld)).2.1]
      · rw [isNew.1] at notEvent
        cases notEvent
    · rintro ⟨allocated, notEvent⟩
      refine ⟨allocates.allocated cluster member used allocated, ?_⟩
      rw [← notEvent, isEvent, isEvent, isFlagSet, isFlagSet,
        (fields_congr (allocatedId member allocated)).2.1]
  · intro used reachedUsed
    obtain ⟨type, size⟩ := marked.same used reachedUsed
    exact ⟨by rw [dataTypeCode, sameId reachedUsed]; exact type,
      (fields_congr (sameId reachedUsed)).2.2.trans size⟩
  · intro used reachedUsed offset positive bound notLink
    rw [kept (graph.inUse used reachedUsed offset bound)]
    exact marked.header used reachedUsed offset positive bound notLink
  · intro used reachedUsed
    rw [← marked.alive used reachedUsed, isAlive, isFlagSet,
      (fields_congr (sameId reachedUsed)).2.1]
    rfl
  · intro used isObject notReached
    obtain ⟨usedNotEvent, cluster, member, allocated⟩ := id isObject
    have stays := ((marked.objects cluster member used).mpr
      ⟨allocated, usedNotEvent⟩).1
    rw [isAlive, isFlagSet, (fields_congr (allocatedId member stays)).2.1]
    exact marked.unreached used isObject notReached

/-! ## Visits -/

/-- The memory after a visit. -/
theorem visit_memory
    (marked : Marked input visited memory)
    (graph : GraphWellFormed input)
    (reached : Reached input block) :
    Marked input (fun other => visited other ∨ other = block)
      (visit memory input.weakDelegatesReachable block).1 ∧
    (visit memory input.weakDelegatesReachable block).1 =
      if NanoClr.isWeakDelegateList input.memory block then
        insertNode (clearData (HeapBlock.markAlive memory block) block)
          (memory (input.weakDelegatesReachable + 2))
          input.weakDelegatesReachable block
      else HeapBlock.markAlive memory block := by
  have marked' := marked.markAlive graph reached
  have weakIs := marked'.isWeakDelegateList reached
  have lastWord : HeapBlock.markAlive memory block
      (input.weakDelegatesReachable + 2) =
        memory (input.weakDelegatesReachable + 2) := by
    apply markAlive_other
    have := graph.sentinelApart block reached
    have := headerWords_bounds input.memory block
    omega
  rw [visit_fst, visitMemory]
  simp only [weakIs]
  by_cases isWeak : NanoClr.isWeakDelegateList input.memory block = true
  · obtain ⟨links, marked''⟩ := marked'.link graph reached isWeak
    rw [if_pos isWeak, if_pos isWeak, links, ← lastWord]
    exact ⟨marked'', rfl⟩
  · rw [if_neg isWeak, if_neg isWeak]
    exact ⟨marked', rfl⟩

/-- What a visit leaves to be scanned: a target that is not alive, or else the
fields. -/
theorem visit_range
    (marked : Marked input visited memory)
    (graph : GraphWellFormed input)
    (reached : Reached input block) :
    (visit memory input.weakDelegatesReachable block).2 =
      if NanoClr.target input.memory block ≠ 0 ∧
          isAlive (visit memory input.weakDelegatesReachable block).1
            (NanoClr.target input.memory block) = false then
        (NanoClr.target input.memory block, 1)
      else NanoClr.fieldRange input.memory block := by
  obtain ⟨marked', memoryIs⟩ := marked.visit_memory graph reached
  have targetIs := marked'.target reached
  have rangeIs := marked'.fieldRange reached
  rw [visit_fst] at targetIs rangeIs ⊢
  unfold NanoClr.visit
  simp only [targetIs, rangeIs]
  split <;> rfl

end Marked

end GarbageCollector

end NanoClr
