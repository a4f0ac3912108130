import NanoClr.Heap.HeapRewrites

/-!
# Reshaping a block in use

A block in use may be given another identity, or be split into several blocks in
use.  Nothing else of the heap is touched, so it stays well formed.
-/

namespace NanoClr

open HeapBlock HeapCluster

/-- A block that is in use somewhere in a heap. -/
def InHeap (heap : Heap) (block : Nat) : Prop :=
  ∃ cluster ∈ heap.clusters, Allocated heap.memory cluster block

namespace HeapCluster

variable {memory memory' : Memory} {cluster block : Nat}
  {before after mid : List Nat}

/-- Used blocks may take the place of a used block. -/
theorem WellFormed.reshape
    (wellFormed : WellFormed memory cluster (before ++ [block] ++ after))
    (used : isFree memory block = false)
    (elsewhere : ∀ address,
      address < block ∨ block + words memory block ≤ address →
        memory' address = memory address)
    (tilingMid :
      HeapTiling memory' (block + words memory block) block mid)
    (usedMid : ∀ other ∈ mid, isFree memory' other = false) :
    WellFormed memory' cluster (before ++ mid ++ after) := by
  obtain ⟨tilingBefore, tilingOld, tilingAfter⟩ := wellFormed.split
  obtain ⟨lefts, left, right, rights, around⟩ :=
    exists_around memory cluster before after
  have place := wellFormed.around_place around
  have spanOld := tilingOld.span
  have positive := tilingOld.2.1
  have noneFree : freeOf memory' mid = [] := by
    rw [freeOf, List.filter_eq_nil_iff]
    intro other member
    simp [usedMid other member]
  have linked := wellFormed.linked
  rw [head_freeList, tail_freeList, freeOf_append, freeOf_append,
    freeOf_cons_used used, freeOf_nil, List.append_nil, ← List.cons_append,
    around.leftNodes, List.append_assoc, around.rightNodes] at linked
  have pair : LinkedPair (next memory) (prev memory) left right := by
    have linked' : Linked (next memory) (prev memory)
        (lefts ++ left :: right :: rights) := by
      simpa using linked
    exact linked'.pair
  apply wellFormed.replace around tilingBefore tilingOld tilingAfter
  · intro address outside _ _
    exact elsewhere address outside
  · exact tilingMid
  · rw [noneFree]
    refine List.isChain_pair.mpr ⟨?_, ?_⟩
    · rw [next, elsewhere _ (by omega)]
      exact pair.1
    · rw [prev, elsewhere _ (by omega)]
      exact pair.2
  · rw [noneFree]
    simp

end HeapCluster

/-- How a heap looks after a block was reshaped into others. -/
structure Reshaped
    (heap : Heap) (memory : Memory) (block : Nat) (mid : List Nat) : Prop where
  wellFormed : HeapWellFormed ⟨memory, heap.clusters⟩
  inHeap : ∀ other, InHeap ⟨memory, heap.clusters⟩ other ↔
    other ∈ mid ∨ other ≠ block ∧ InHeap heap other
  kept : ∀ other, other ≠ block → InHeap heap other →
    Unaltered heap.memory memory other

section Reshape

variable {heap : Heap} {memory : Memory} {block : Nat} {mid : List Nat}

theorem InHeap.words_pos
    (wellFormed : HeapWellFormed heap)
    (inHeap : InHeap heap block) :
    3 ≤ words heap.memory block := by
  obtain ⟨cluster, member, allocated⟩ := inHeap
  obtain ⟨blocks, own⟩ := wellFormed.clusters cluster member
  exact (own.place (own.allocated_iff.mp allocated).1).2.2.1

/-- Blocks in use take at least one heap block. -/
theorem InHeap.size_pos
    (wellFormed : HeapWellFormed heap)
    (inHeap : InHeap heap block) :
    1 ≤ dataSize heap.memory block := by
  have positive := inHeap.words_pos wellFormed
  rw [words] at positive
  omega

/-- Two blocks in use do not overlap. -/
theorem InHeap.apart
    (wellFormed : HeapWellFormed heap)
    {other : Nat}
    (inHeap : InHeap heap block)
    (otherInHeap : InHeap heap other)
    (different : block ≠ other) :
    block + words heap.memory block ≤ other ∨
      other + words heap.memory other ≤ block := by
  obtain ⟨_, member, allocated⟩ := inHeap
  obtain ⟨_, member', allocated'⟩ := otherInHeap
  exact wellFormed.laid.disjoint member member' allocated allocated' different

/-- Reshaping one block leaves the others alone. -/
theorem HeapWellFormed.reshape
    (wellFormed : HeapWellFormed heap)
    (inHeap : InHeap heap block)
    (elsewhere : ∀ address,
      address < block ∨ block + words heap.memory block ≤ address →
        memory address = heap.memory address)
    (tilingMid :
      HeapTiling memory (block + words heap.memory block) block mid)
    (usedMid : ∀ other ∈ mid, isFree memory other = false) :
    Reshaped heap memory block mid := by
  obtain ⟨cluster, member, allocated⟩ := inHeap
  obtain ⟨blocks, own⟩ := wellFormed.clusters cluster member
  obtain ⟨isBlock, used⟩ := own.allocated_iff.mp allocated
  have blockPlace := own.place isBlock
  obtain ⟨before, after, rfl⟩ := List.append_of_mem isBlock
  rw [← List.singleton_append, ← List.append_assoc] at own
  have own' := own.reshape used elsewhere tilingMid usedMid
  have isLocal : Local heap.memory memory cluster := by
    constructor
    · intro address outside
      exact elsewhere address (by omega)
    · exact elsewhere (cluster + 7) (by omega)
  have wellFormed' := wellFormed.update isLocal member own'
  have kept (other : Nat) (different : other ≠ block)
      (isIn : InHeap heap other) :
      Unaltered heap.memory memory other := by
    obtain ⟨home, homeMember, isAllocated⟩ := isIn
    have apart := wellFormed.laid.disjoint homeMember member isAllocated
      allocated different
    intro address lower upper
    exact elsewhere address (by omega)
  refine ⟨wellFormed', fun other => ?_, kept⟩
  constructor
  · rintro ⟨home, homeMember, isAllocated⟩
    by_cases same : home = cluster
    · subst same
      obtain ⟨isOther, notFree⟩ := own'.allocated_iff.mp isAllocated
      by_cases isMid : other ∈ mid
      · exact .inl isMid
      · have outside : other ∈ before ++ [block] ++ after := by
          simp only [List.mem_append] at isOther ⊢
          tauto
        have different : other ≠ block := by
          rintro rfl
          obtain ⟨lowerTiling, _, upperTiling⟩ := own.split
          have isOutside : other ∈ before ∨ other ∈ after := by
            simp only [List.mem_append] at isOther
            tauto
          rcases isOutside with isBefore | isAfter
          · have := lowerTiling.place isBefore
            omega
          · have := upperTiling.place isAfter
            omega
        have apart := own.tiling.disjoint outside (by simp) different
        have otherPlace := own.place outside
        refine .inr ⟨different, home, member, own.allocated_iff.mpr
          ⟨outside, ?_⟩⟩
        rw [← isFree_congr (elsewhere other (by omega)), notFree]
    · obtain ⟨others, isWellFormed⟩ := wellFormed.clusters home homeMember
      have untouched (address : Nat) (lower : home ≤ address)
          (upper : address < payloadEnd heap.memory home) :=
        wellFormed.elsewhere isLocal member homeMember same lower upper
      have isWellFormed' := isWellFormed.congr untouched
      obtain ⟨isOther, notFree⟩ := isWellFormed'.allocated_iff.mp isAllocated
      have otherPlace := isWellFormed.place isOther
      have apart := wellFormed.apart homeMember member same
      refine .inr ⟨by omega, home, homeMember, isWellFormed.allocated_iff.mpr
        ⟨isOther, ?_⟩⟩
      rw [← isFree_congr (untouched other (by omega) (by omega)), notFree]
  · rintro (isMid | ⟨different, home, homeMember, isAllocated⟩)
    · exact ⟨cluster, member, own'.allocated_iff.mpr
        ⟨by simp [isMid], usedMid other isMid⟩⟩
    · have isIn : InHeap heap other := ⟨home, homeMember, isAllocated⟩
      have unaltered := kept other different isIn
      have positive := isIn.words_pos wellFormed
      by_cases same : home = cluster
      · subst same
        obtain ⟨isOther, notFree⟩ := own.allocated_iff.mp isAllocated
        refine ⟨home, member, own'.allocated_iff.mpr ⟨?_, ?_⟩⟩
        · simp only [List.mem_append, List.mem_singleton] at isOther ⊢
          tauto
        · rw [isFree_congr (unaltered other (by omega) (by omega)), notFree]
      · exact ⟨home, homeMember, (wellFormed.keepsOther isLocal member
          homeMember same isAllocated).1⟩

/-- The fields of a block that was left alone. -/
theorem Reshaped.fields
    (reshaped : Reshaped heap memory block mid)
    (wellFormed : HeapWellFormed heap)
    {other : Nat}
    (different : other ≠ block)
    (inHeap : InHeap heap other) :
    dataType memory other = dataType heap.memory other ∧
      dataFlags memory other = dataFlags heap.memory other ∧
      dataSize memory other = dataSize heap.memory other := by
  have positive := inHeap.words_pos wellFormed
  exact fields_congr
    (reshaped.kept other different inHeap other (by omega) (by omega))

/-- A block that keeps its place. -/
theorem Reshaped.inHeap_same
    (reshaped : Reshaped heap memory block [block])
    (inHeap : InHeap heap block)
    (other : Nat) :
    InHeap ⟨memory, heap.clusters⟩ other ↔ InHeap heap other := by
  rw [reshaped.inHeap, List.mem_singleton]
  constructor
  · rintro (same | ⟨_, isIn⟩)
    · rwa [same]
    · exact isIn
  · intro isIn
    by_cases same : other = block
    · exact .inl same
    · exact .inr ⟨same, isIn⟩

end Reshape

end NanoClr
