import NanoClr.EventCache.CacheCalls
import NanoClr.Library.TransitionSystem

/-!
# Nothing is lost in the event cache

As long as every extraction asks for at least one heap block, the cache neither
loses blocks nor hands them out twice.
-/

namespace NanoClr

open HeapBlock HeapCluster

namespace EventCache

/-- A call that asks for blocks keeps the invariant and loses nothing. -/
theorem CacheStep.conserves
    {state later : CacheState}
    {call : CacheCall}
    (invariant : CacheInvariant state)
    (asks : AsksForBlocks call)
    (step : CacheStep state call later) :
    CacheInvariant later ∧ StepConserves state call later := by
  have waits {extraction : Extraction} (proper : extraction.Proper)
      (positive : 1 ≤ extraction.blocks) :
      CacheInvariant
          { state with waiting := (extraction, false) :: state.waiting } ∧
        ExtractsFromLists state
          { state with waiting := (extraction, false) :: state.waiting }
          extraction := by
    refine ⟨{ invariant with waiting := ?_ }, fun _ => Iff.rfl,
      .inl ⟨rfl, rfl⟩⟩
    intro entry member
    rcases List.mem_cons.mp member with rfl | isLater
    · exact ⟨proper, positive⟩
    · exact invariant.waiting entry isLater
  cases step with
  | append owned =>
      exact ⟨appendNode_invariant invariant owned,
        append_conserves invariant owned⟩
  | slowHit proper extracts =>
      exact extractSlow_conserves invariant proper asks extracts
  | slowMiss proper misses => exact waits proper asks
  | fastHit proper positive small extracts =>
      exact extractFast_conserves invariant proper positive small extracts
  | fastMiss proper positive small misses => exact waits proper positive
  | heapHit first small returns nonzero =>
      exact extractFromHeap_conserves invariant first returns nonzero
  | collect first small misses mayCollect marked recovers =>
      exact collect_conserves invariant first marked recovers
  | @giveUp _ _ waiting first fails =>
      refine ⟨{ invariant with waiting := ?_ }, rfl, rfl⟩
      intro entry member
      exact invariant.waiting entry (by simp [first, member])

/-- In every run whose extractions ask for at least one heap block, every cached
block is on the one list for its size, and every call conserves the blocks. -/
theorem eventCache_conserves
    {taken : List (CacheState × CacheCall)}
    {state : CacheState}
    (run : Run CacheStart CacheStep taken state)
    (asked : ∀ entry ∈ taken, AsksForBlocks entry.2) :
    Conserved state ∧
      ∀ call later, AsksForBlocks call → CacheStep state call later →
        StepConserves state call later ∧ Conserved later := by
  have invariant : CacheInvariant state :=
    run.invariant_of CacheInvariant (fun _ call => AsksForBlocks call)
      (fun _ start => start.invariant)
      (fun _ _ _ holds asks step => (step.conserves holds asks).1) asked
  refine ⟨invariant.conserved, fun call later asks step => ?_⟩
  obtain ⟨invariant', conserves⟩ := step.conserves invariant asks
  exact ⟨conserves, invariant'.conserved⟩

/-! ## A request for no blocks -/

/-- A cluster of sixty heap blocks. -/
def clusterMemory : Memory :=
  (heapClusterInitialize (fun _ => 0) 100 752 60).getD fun _ => 0

/-- The empty cache in a heap of this cluster. -/
def clusterState : CacheState where
  cache := ⟨clusterMemory, fun _ => []⟩
  clusters := [100]
  handedOut := []
  waiting := []

theorem clusterState_wellFormed : HeapWellFormed clusterState.heap := by
  have empty : HeapReachable ⟨fun _ => 0, []⟩ := Reachable.start rfl
  obtain ⟨memory, returns, _⟩ : ∃ memory,
      heapClusterInitialize (fun _ => 0) 100 752 60 = some memory ∧ _ :=
    heapClusterInitialize_heap empty.wellFormed (by decide) (by decide)
      (fun _ _ _ => rfl) (by simp)
  have reachable : HeapReachable ⟨memory, [100]⟩ :=
    empty.next (HeapStep.create (by decide) (by decide) (by decide)
      (fun _ _ _ => rfl) (by simp) returns)
  have same : clusterMemory = memory := by
    rw [clusterMemory, returns]
    rfl
  rw [CacheState.heap, clusterState, same]
  exact reachable.wellFormed

theorem clusterState_start : CacheStart clusterState where
  wellFormed := clusterState_wellFormed
  empty := fun _ => rfl
  uncached := by
    rintro block ⟨cluster, member, used, blocks, has, isBlock⟩
    rw [List.mem_singleton.mp member] at has
    have onlyFree : HasBlocks clusterMemory 100 [108] := by
      refine ⟨?_, ?_, ?_⟩
      · decide +kernel
      · decide +kernel
      · rw [Tiling.nil_iff]
        decide +kernel
    have sameBlocks : blocks = [108] := Tiling.unique has onlyFree
    rw [sameBlocks, List.mem_singleton] at isBlock
    have free : isFree clusterMemory 108 = true := by decide +kernel
    rw [isBlock] at used
    change isFree clusterMemory 108 = false at used
    rw [free] at used
    cases used
  nodup := List.nodup_nil
  events := by
    intro block member
    cases member
  idle := rfl

/-- A request for one heap block. -/
def oneBlock : Extraction := ⟨.timerHead, 0, 1⟩

/-- A request for no heap blocks. -/
def noBlocks : Extraction := ⟨.binaryBlobHead, 0, 0⟩

/-- The cache after a block was asked of the heap. -/
def afterTimer : CacheState where
  cache :=
    { memory := clearData
        ((extractHeapBlocks { clusterState with waiting := [(oneBlock, false)] }
          oneBlock).getD (fun _ => 0, 0)).1 285
      m_events := fun _ => [] }
  clusters := [100]
  handedOut := [285]
  waiting := []

/-- What is returned when the block is known. -/
theorem eq_some_of_block
    {α : Type}
    {returned : Option (α × Nat)}
    {block : Nat}
    (otherwise : α × Nat)
    (isBlock : returned.map Prod.snd = some block) :
    returned = some ((returned.getD otherwise).1, block) := by
  cases returned with
  | none => cases isBlock
  | some result =>
      cases isBlock
      rfl

theorem oneBlock_proper : oneBlock.Proper := ⟨by decide, by decide⟩

theorem noBlocks_proper : noBlocks.Proper := ⟨by decide, by decide⟩

theorem afterTimer_run :
    Run CacheStart CacheStep
      [
        (clusterState, .extractFast oneBlock),
        ({ clusterState with waiting := [(oneBlock, false)] }, .extractFromHeap)
      ]
      afterTimer := by
  have misses : CacheStep clusterState (.extractFast oneBlock)
      { clusterState with waiting := [(oneBlock, false)] } :=
    .fastMiss oneBlock_proper (by decide) (by decide) rfl
  have takes : CacheStep { clusterState with waiting := [(oneBlock, false)] }
      .extractFromHeap afterTimer :=
    .heapHit rfl (by decide) (eq_some_of_block _ (by decide +kernel))
      (by decide)
  exact ((Run.start clusterState_start).next misses).next takes

/-- A request for a binary blob. -/
def binaryBlob (blocks : Nat) : Extraction := ⟨.binaryBlobHead, 0, blocks⟩

theorem binaryBlob_proper (blocks : Nat) : (binaryBlob blocks).Proper :=
  ⟨by simp [binaryBlob], by simp [binaryBlob]⟩

/-- A blob of 45 heap blocks was asked of the heap besides. -/
def afterBlob : CacheState :=
  let asking := { afterTimer with waiting := [(binaryBlob 45, false)] }
  { afterTimer with
    cache.memory := clearData
      ((extractHeapBlocks asking (binaryBlob 45)).getD (fun _ => 0, 0)).1 150
    handedOut := [150, 285] }

/-- The blob is on the list for large blocks. -/
def withLargeBlock : CacheState :=
  { afterBlob with
    cache := appendNode afterBlob.cache 150
    handedOut := [285] }

/-- Its first 40 heap blocks are handed out again, and the tail is on the list
for five. -/
def withTail : CacheState :=
  { withLargeBlock with
    cache := ((extractNodeSlow withLargeBlock.cache (binaryBlob 40)).getD
      (withLargeBlock.cache, 0)).1
    handedOut := [150, 285] }

/-- The tail is handed out as well. -/
def withoutTail : CacheState :=
  { withTail with
    cache := ((extractNodeFast withTail.cache (binaryBlob 5)
      (by decide)).getD (withTail.cache, 0)).1
    handedOut := [270, 150, 285] }

/-- A timer and a large blob from the heap; the blob is given back and cut in
two for smaller ones. -/
theorem eventCache_conserves_split :
    Conserved withoutTail := by
  have misses : CacheStep afterTimer (.extractSlow (binaryBlob 45))
      { afterTimer with waiting := [(binaryBlob 45, false)] } :=
    .slowMiss (binaryBlob_proper 45) rfl
  have takes : CacheStep
      { afterTimer with waiting := [(binaryBlob 45, false)] }
      .extractFromHeap afterBlob :=
    .heapHit rfl (by decide) (eq_some_of_block _ (by decide +kernel))
      (by decide)
  have gives : CacheStep afterBlob (.append 150) withLargeBlock :=
    .append List.mem_cons_self
  have splits : CacheStep withLargeBlock (.extractSlow (binaryBlob 40))
      withTail :=
    .slowHit (binaryBlob_proper 40) (eq_some_of_block _ (by decide +kernel))
  have takesTail : CacheStep withTail (.extractFast (binaryBlob 5))
      withoutTail :=
    .fastHit (binaryBlob_proper 5) (by decide) (by decide)
      (eq_some_of_block _ (by decide +kernel))
  have run := ((afterTimer_run.next misses).next takes).next gives
  exact (eventCache_conserves ((run.next splits).next takesTail) (by
    simp only [List.forall_mem_append, List.forall_mem_cons]
    simp [AsksForBlocks, binaryBlob])).1

/-- A request for no blocks hands out the block behind a free one, even when
that is on a list. -/
theorem eventCache_handsOutListed :
    ¬ ∀ (taken : List (CacheState × CacheCall)) (state : CacheState),
      Run CacheStart CacheStep taken state → Conserved state := by
  intro conserved
  let given : CacheState :=
    { afterTimer with
      cache := appendNode afterTimer.cache 285
      handedOut := [] }
  let asking : CacheState := { given with waiting := [(noBlocks, false)] }
  have gives : CacheStep afterTimer (.append 285) given :=
    .append List.mem_cons_self
  have waits : CacheStep given (.extractSlow noBlocks) asking :=
    .slowMiss noBlocks_proper rfl
  have again : (extractHeapBlocks asking noBlocks).map Prod.snd = some 285 := by
    decide +kernel
  have takes := CacheStep.heapHit rfl (by decide) (eq_some_of_block (fun _ => 0, 0) again)
    (by decide)
  have run := ((afterTimer_run.next gives).next waits).next takes
  apply ((conserved _ _ run).handed 285 List.mem_cons_self).2
  refine ⟨listFor 1, ?_⟩
  decide +kernel

end EventCache

end NanoClr
