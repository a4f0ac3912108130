import NanoClr.Heap.ReshapeBlock

/-!
# Allocating from and sweeping all clusters

An event block is taken from the last cluster that has room for it, and a
collection ends with a sweep of every cluster.
-/

namespace NanoClr

open HeapBlock HeapCluster

/-! ## Allocating -/

/-- The clusters of a heap are asked one after the other; zero when none has a
free block that is long enough. -/
def extractFromClusters
    (memory : Memory) (dataTypeCode flags length : Nat) :
    List Nat → Option (Memory × Nat)
  | [] => some (memory, 0)
  | cluster :: rest => do
      let (memory, block) ←
        extractBlocks memory cluster dataTypeCode flags length
      if block ≠ 0 then
        some (memory, block)
      else
        extractFromClusters memory dataTypeCode flags length rest

/-- A block that a heap hands out is new, and the others are left alone. -/
structure HandedOut
    (heap : Heap) (memory : Memory)
    (kind : DataType) (flags length block : Nat) : Prop where
  wellFormed : HeapWellFormed ⟨memory, heap.clusters⟩
  inHeap : ∀ other, InHeap ⟨memory, heap.clusters⟩ other ↔
    other = block ∨ InHeap heap other
  fresh : ¬ InHeap heap block
  kept : ∀ other, InHeap heap other → Unaltered heap.memory memory other
  type : dataType memory block = some kind
  size : dataSize memory block = length
  flagged : dataFlags memory block = flags % 0x100

section Extract

variable {heap : Heap} {kind : DataType} {length : Nat}

/-- What one cluster hands out is handed out by the heap. -/
theorem extractBlocks_handedOut
    (wellFormed : HeapWellFormed heap)
    {cluster : Nat}
    (member : cluster ∈ heap.clusters)
    (notFree : kind ≠ .freeBlock)
    (flags : Nat)
    (positive : 1 ≤ length) :
    extractBlocks heap.memory cluster kind.code flags length =
        some (heap.memory, 0) ∨
      ∃ memory block, block ≠ 0 ∧
        extractBlocks heap.memory cluster kind.code flags length =
          some (memory, block) ∧
        HandedOut heap memory kind flags length block := by
  obtain ⟨blocks, own⟩ := wellFormed.clusters cluster member
  rcases extractBlocks_spec own notFree flags positive with
    ⟨fails, _⟩ | ⟨memory, block, blocks', nonzero, returns, extracted⟩
  · exact .inl fails
  have isLocal : Local heap.memory memory cluster :=
    ⟨extracted.preserves.outside, extracted.preserves.stop⟩
  have taken := extracted.wellFormed.place extracted.member
  have takenWords : words memory block = 3 * length := by
    rw [words, extracted.size]
  have kept (other : Nat) (isIn : InHeap heap other) :
      other ≠ block ∧ InHeap ⟨memory, heap.clusters⟩ other ∧
        Unaltered heap.memory memory other := by
    have positive := isIn.words_pos wellFormed
    obtain ⟨home, homeMember, isAllocated⟩ := isIn
    by_cases same : home = cluster
    · subst same
      obtain ⟨isOther, used⟩ := own.allocated_iff.mp isAllocated
      obtain ⟨stays, unaltered⟩ :=
        extracted.preserves.used other isOther used (by simp)
      have apart := extracted.separate other isOther used
      have sameId := unaltered other (by omega) (by omega)
      exact ⟨by omega, ⟨home, member, extracted.wellFormed.allocated_iff.mpr
        ⟨stays, by rw [isFree_congr sameId, used]⟩⟩, unaltered⟩
    · obtain ⟨others, isWellFormed⟩ := wellFormed.clusters home homeMember
      have place := isWellFormed.place
        (isWellFormed.allocated_iff.mp isAllocated).1
      have apart := wellFormed.apart homeMember member same
      have sameEnd := isLocal.stop
      have keeps := wellFormed.keepsOther isLocal member homeMember same
        isAllocated
      exact ⟨by omega, ⟨home, homeMember, keeps.1⟩, keeps.2⟩
  refine .inr ⟨memory, block, nonzero, returns, {
    wellFormed := wellFormed.update isLocal member extracted.wellFormed
    inHeap := fun other => ⟨?_, ?_⟩
    fresh := fun isIn => (kept block isIn).1 rfl
    kept := fun other isIn => (kept other isIn).2.2
    type := extracted.type
    size := extracted.size
    flagged := extracted.flagged }⟩
  · rintro ⟨home, homeMember, isAllocated⟩
    by_cases same : home = cluster
    · subst same
      obtain ⟨isOther, used⟩ :=
        extracted.wellFormed.allocated_iff.mp isAllocated
      rcases extracted.fresh other isOther used with isTaken | isOld
      · exact .inl isTaken
      · exact .inr ⟨home, member, own.allocated_iff.mpr isOld⟩
    · obtain ⟨others, isWellFormed⟩ := wellFormed.clusters home homeMember
      have untouched (address : Nat) (lower : home ≤ address)
          (upper : address < payloadEnd heap.memory home) :=
        wellFormed.elsewhere isLocal member homeMember same lower upper
      obtain ⟨isOther, used⟩ :=
        (isWellFormed.congr untouched).allocated_iff.mp isAllocated
      have place := isWellFormed.place isOther
      refine .inr ⟨home, homeMember, isWellFormed.allocated_iff.mpr
        ⟨isOther, ?_⟩⟩
      rw [← isFree_congr (untouched other (by omega) (by omega)), used]
  · rintro (isTaken | isIn)
    · subst isTaken
      exact ⟨cluster, member, extracted.wellFormed.allocated_iff.mpr
        ⟨extracted.member, by simp [isFree, extracted.type, notFree]⟩⟩
    · exact (kept other isIn).2.1

/-- Either no cluster has room and nothing changes, or a new block is handed
out. -/
theorem extractFromClusters_spec
    (wellFormed : HeapWellFormed heap)
    (notFree : kind ≠ .freeBlock)
    (flags : Nat)
    (positive : 1 ≤ length)
    (clusters : List Nat)
    (members : ∀ cluster ∈ clusters, cluster ∈ heap.clusters) :
    extractFromClusters heap.memory kind.code flags length clusters =
        some (heap.memory, 0) ∨
      ∃ memory block, block ≠ 0 ∧
        extractFromClusters heap.memory kind.code flags length clusters =
          some (memory, block) ∧
        HandedOut heap memory kind flags length block := by
  induction clusters with
  | nil => exact .inl rfl
  | cons cluster rest inductionHypothesis =>
      have member := members cluster List.mem_cons_self
      rcases extractBlocks_handedOut wellFormed member notFree flags positive
        with fails | ⟨memory, block, nonzero, returns, handedOut⟩
      · have unchanged :
            extractFromClusters heap.memory kind.code flags length
              (cluster :: rest) =
            extractFromClusters heap.memory kind.code flags length rest := by
          simp [extractFromClusters, fails]
        rw [unchanged]
        exact inductionHypothesis fun other isOther =>
          members other (List.mem_cons_of_mem _ isOther)
      · refine .inr ⟨memory, block, nonzero, ?_, handedOut⟩
        simp [extractFromClusters, returns, nonzero]

end Extract

/-! ## Sweeping -/

/-- Every cluster is swept. -/
def recoverClusters (memory : Memory) : List Nat → Option Memory
  | [] => some memory
  | cluster :: rest => do
      let memory ← recoverFromGC memory cluster
      recoverClusters memory rest

namespace HeapCluster

variable {memory memory' memory'' : Memory} {cluster : Nat} {blocks : List Nat}

/-- A layout depends only on the words of the cluster. -/
theorem Laid.congr
    (laid : Laid memory cluster blocks)
    (same : ∀ address, cluster ≤ address →
      address < payloadEnd memory cluster → memory' address = memory address) :
    Laid memory' cluster blocks := by
  have span := laid.tiling.span
  have keepsId (block : Nat) (member : block ∈ blocks) :
      memory' block = memory block := by
    have := laid.place member
    exact same block (by omega) (by omega)
  have sameEnd : payloadEnd memory' cluster = payloadEnd memory cluster :=
    same (cluster + 7) (by omega) (by omega)
  exact {
    start := (same (cluster + 6) (by omega) (by omega)).trans laid.start
    small := by
      rw [sameEnd]
      exact laid.small
    tiling := by
      rw [sameEnd]
      exact laid.tiling.congr keepsId
    unmarked := by
      intro block free
      rw [freeOf_congr keepsId] at free
      rw [isAlive, isFlagSet,
        (fields_congr (keepsId block (mem_freeOf.mp free).1)).2.1]
      exact laid.unmarked block free }

/-- Blocks may get other identities of the same size, as long as the free ones
are not marked. -/
theorem Laid.relabel
    (laid : Laid memory cluster blocks)
    (header : ∀ address, cluster ≤ address → address < cluster + 8 →
      memory' address = memory address)
    (sizes : ∀ block ∈ blocks, dataSize memory' block = dataSize memory block)
    (unmarked : ∀ block ∈ freeOf memory' blocks,
      isAlive memory' block = false) :
    Laid memory' cluster blocks := by
  have sameEnd : payloadEnd memory' cluster = payloadEnd memory cluster :=
    header (cluster + 7) (by omega) (by omega)
  exact {
    start := (header (cluster + 6) (by omega) (by omega)).trans laid.start
    small := by
      rw [sameEnd]
      exact laid.small
    tiling := by
      rw [sameEnd]
      apply Tiling.congr laid.tiling
      intro block member
      rw [words, words, sizes block member]
    unmarked }

/-- A cluster that was swept: what was in use and alive stays, with the mark of
objects taken. -/
structure SweptCluster (memory memory' : Memory) (cluster : Nat) : Prop where
  wellFormed : ∃ blocks, WellFormed memory' cluster blocks
  stop : payloadEnd memory' cluster = payloadEnd memory cluster
  allocated : ∀ block, Allocated memory' cluster block ↔
    Allocated memory cluster block ∧ isAlive memory block = true
  ids : ∀ block, Allocated memory cluster block →
    isAlive memory block = true → memory' block = sweptId memory block

theorem recoverFromGC_swept (laid : Laid memory cluster blocks) :
    ∃ memory', recoverFromGC memory cluster = some memory' ∧
      SweptCluster memory memory' cluster ∧
      ∀ address, address < cluster ∨ payloadEnd memory cluster ≤ address →
        memory' address = memory address := by
  obtain ⟨memory', blocks', returns, wellFormed, swept, stop, outside⟩ :=
    recoverFromGC_spec laid
  refine ⟨memory', returns, ⟨⟨blocks', wellFormed⟩, stop, ?_, ?_⟩, outside⟩
  · intro block
    rw [wellFormed.allocated_iff, laid.allocated_iff]
    constructor
    · rintro ⟨member, used⟩
      obtain ⟨isBlock, alive⟩ := swept.used block member used
      have id := (swept.alive block isBlock alive).2.1
      rw [isFree_sweptId id] at used
      exact ⟨⟨isBlock, used⟩, alive⟩
    · rintro ⟨⟨isBlock, used⟩, alive⟩
      obtain ⟨stays, id, _⟩ := swept.alive block isBlock alive
      exact ⟨stays, by rw [isFree_sweptId id, used]⟩
  · intro block allocated alive
    exact (swept.alive block (laid.allocated_iff.mp allocated).1 alive).2.1

/-- Sweeping another cluster does not matter. -/
theorem SweptCluster.congr
    (swept : SweptCluster memory memory' cluster)
    (same : ∀ address, cluster ≤ address →
      address < payloadEnd memory cluster →
        memory'' address = memory' address) :
    SweptCluster memory memory'' cluster := by
  obtain ⟨blocks, wellFormed⟩ := swept.wellFormed
  have same' (address : Nat) (lower : cluster ≤ address)
      (upper : address < payloadEnd memory' cluster) :
      memory'' address = memory' address :=
    same address lower (by rw [← swept.stop]; exact upper)
  have wellFormed' := wellFormed.congr same'
  have span := wellFormed.tiling.span
  refine ⟨⟨blocks, wellFormed'⟩, ?_, ?_, ?_⟩
  · rw [← swept.stop]
    exact same' (cluster + 7) (by omega) (by omega)
  · intro block
    rw [← swept.allocated, wellFormed.allocated_iff, wellFormed'.allocated_iff]
    apply and_congr_right
    intro member
    have place := wellFormed.place member
    rw [isFree_congr (same' block (by omega) (by omega))]
  · intro block allocated alive
    have stays := (swept.allocated block).mpr ⟨allocated, alive⟩
    have place := wellFormed.place (wellFormed.allocated_iff.mp stays).1
    rw [same' block (by omega) (by omega)]
    exact swept.ids block allocated alive

end HeapCluster

/-- A heap that was swept. -/
structure SweptHeap (heap : Heap) (memory : Memory) : Prop where
  wellFormed : HeapWellFormed ⟨memory, heap.clusters⟩
  inHeap : ∀ block, InHeap ⟨memory, heap.clusters⟩ block ↔
    InHeap heap block ∧ isAlive heap.memory block = true
  ids : ∀ block, InHeap heap block → isAlive heap.memory block = true →
    memory block = sweptId heap.memory block

/-- Some clusters of a heap are swept; the rest of memory does not change. -/
theorem recoverClusters_swept
    {heap : Heap}
    (laid : HeapLaid heap)
    (clusters : List Nat)
    (members : ∀ cluster ∈ clusters, cluster ∈ heap.clusters)
    (nodup : clusters.Nodup)
    (memory : Memory)
    (untouched : ∀ cluster ∈ clusters, ∀ address, cluster ≤ address →
      address < payloadEnd heap.memory cluster →
        memory address = heap.memory address) :
    ∃ memory', recoverClusters memory clusters = some memory' ∧
      (∀ cluster ∈ clusters, SweptCluster heap.memory memory' cluster) ∧
      ∀ address, (∀ cluster ∈ clusters,
        address < cluster ∨ payloadEnd heap.memory cluster ≤ address) →
          memory' address = memory address := by
  induction clusters generalizing memory with
  | nil => exact ⟨memory, rfl, by simp, fun _ _ => rfl⟩
  | cons cluster rest inductionHypothesis =>
      obtain ⟨notRest, nodup⟩ := List.nodup_cons.mp nodup
      have member := members cluster List.mem_cons_self
      have restMembers (other : Nat) (isOther : other ∈ rest) :
          other ∈ heap.clusters :=
        members other (List.mem_cons_of_mem _ isOther)
      have here := untouched cluster List.mem_cons_self
      obtain ⟨blocks, own⟩ := laid.clusters cluster member
      have own' := own.congr here
      have span := own.tiling.span
      have sameEnd : payloadEnd memory cluster =
          payloadEnd heap.memory cluster := here _ (by omega) (by omega)
      obtain ⟨first, returns, swept, outside⟩ := recoverFromGC_swept own'
      rw [sameEnd] at outside
      have notOther (other : Nat) (isOther : other ∈ rest) :
          payloadEnd heap.memory other ≤ cluster ∨
            payloadEnd heap.memory cluster ≤ other := by
        apply laid.apart (restMembers other isOther) member
        rintro rfl
        exact notRest isOther
      obtain ⟨memory', returns', sweptRest, outsideRest⟩ :=
        inductionHypothesis restMembers nodup first (by
          intro other isOther address lower upper
          have apart := notOther other isOther
          rw [outside address (by omega)]
          exact untouched other (List.mem_cons_of_mem _ isOther) address lower
            upper)
      have sweptHere : SweptCluster heap.memory first cluster := by
        refine ⟨swept.wellFormed, swept.stop.trans sameEnd, ?_, ?_⟩
        · intro block
          rw [swept.allocated, own.allocated_iff, own'.allocated_iff]
          constructor
          · rintro ⟨⟨isBlock, used⟩, alive⟩
            have place := own.place isBlock
            have same := here block (by omega) (by omega)
            rw [isFree_congr same] at used
            rw [isAlive, isFlagSet, (fields_congr same).2.1] at alive
            exact ⟨⟨isBlock, used⟩, alive⟩
          · rintro ⟨⟨isBlock, used⟩, alive⟩
            have place := own.place isBlock
            have same := here block (by omega) (by omega)
            refine ⟨⟨isBlock, by rw [isFree_congr same, used]⟩, ?_⟩
            rw [isAlive, isFlagSet, (fields_congr same).2.1]
            exact alive
        · intro block allocated alive
          obtain ⟨isBlock, used⟩ := own.allocated_iff.mp allocated
          have place := own.place isBlock
          have same := here block (by omega) (by omega)
          have id := swept.ids block
            (own'.allocated_iff.mpr
              ⟨isBlock, by rw [isFree_congr same, used]⟩)
            (by rw [isAlive, isFlagSet, (fields_congr same).2.1]; exact alive)
          rw [id, sweptId, sweptId, markDead, markDead, resetFlags,
            resetFlags, setDataId_same, setDataId_same, isEvent, isEvent,
            isFlagSet, isFlagSet, dataTypeCode, dataTypeCode,
            (fields_congr same).2.1, (fields_congr same).2.2, same]
      refine ⟨memory', ?_, ?_, ?_⟩
      · simp [recoverClusters, returns, returns']
      · intro other isOther
        rcases List.mem_cons.mp isOther with isFirst | isRest
        · subst isFirst
          apply sweptHere.congr
          intro address lower upper
          apply outsideRest
          intro later isLater
          have apart := notOther later isLater
          omega
        · exact sweptRest other isRest
      · intro address away
        have awayHere := away cluster List.mem_cons_self
        rw [outsideRest address fun other isOther =>
          away other (List.mem_cons_of_mem _ isOther), outside address awayHere]

/-- Sweeping all clusters of a heap. -/
theorem recoverClusters_spec
    {heap : Heap}
    (laid : HeapLaid heap) :
    ∃ memory, recoverClusters heap.memory heap.clusters = some memory ∧
      SweptHeap heap memory := by
  have nodup : heap.clusters.Nodup := by
    apply laid.separate.imp_of_mem
    rintro left right leftMember _ apart rfl
    obtain ⟨blocks, own⟩ := laid.clusters left leftMember
    have span := own.tiling.span
    omega
  obtain ⟨memory, returns, swept, _⟩ := recoverClusters_swept laid
    heap.clusters (fun _ => id) nodup heap.memory fun _ _ _ _ _ => rfl
  refine ⟨memory, returns, ⟨⟨?_, ?_⟩, ?_, ?_⟩⟩
  · exact fun cluster member => (swept cluster member).wellFormed
  · apply laid.separate.imp_of_mem
    intro left right leftMember rightMember apart
    simp only [(swept left leftMember).stop, (swept right rightMember).stop]
    exact apart
  · intro block
    constructor
    · rintro ⟨cluster, member, allocated⟩
      obtain ⟨before, alive⟩ :=
        ((swept cluster member).allocated block).mp allocated
      exact ⟨⟨cluster, member, before⟩, alive⟩
    · rintro ⟨⟨cluster, member, before⟩, alive⟩
      exact ⟨cluster, member,
        ((swept cluster member).allocated block).mpr ⟨before, alive⟩⟩
  · rintro block ⟨cluster, member, allocated⟩ alive
    exact (swept cluster member).ids block allocated alive

end NanoClr
