import NanoClr.GarbageCollector.WeakDelegatesListed
import NanoClr.Heap.SweepHeap

/-!
# Marking and sweeping

What `Mark` leaves for the sweep, and which objects are left in the heap after
it.
-/

namespace NanoClr

open HeapBlock HeapCluster

namespace GarbageCollector

section Collection

variable
  {input : MarkInput}
  {taken : List (MarkState × CollectEvent)}
  {state : MarkState}

/-- Exactly the objects that are reached are marked, and which blocks are
objects has not changed. -/
theorem CollectRun.marks
    (graph : GraphWellFormed input)
    (noStaleMarks : NoStaleMarks input)
    (run : CollectRun input taken state)
    (room : ∀ entry ∈ taken, StepFindsRoom entry.1 entry.2)
    (finished : state.phase = .finished) :
    HeapLaid ⟨state.collector.memory, input.clusters⟩ ∧
      ∀ block,
        (IsObject ⟨state.collector.memory, input.clusters⟩ block ↔
          IsObject input.heap block) ∧
        (IsObject input.heap block →
          (isAlive state.collector.memory block = true ↔
            Reached input block)) := by
  obtain ⟨visited, handed, holds⟩ := run.invariant graph room
  have place := holds.place
  rw [AtPlace, finished] at place
  have marked := holds.marked place.1
  refine ⟨marked.laid, fun block => ⟨?_, fun isObject => ⟨?_, ?_⟩⟩⟩
  · constructor
    · rintro ⟨noEvent, cluster, member, allocated⟩
      obtain ⟨allocated, noEvent⟩ :=
        (marked.objects cluster member block).mp ⟨allocated, noEvent⟩
      exact ⟨noEvent, cluster, member, allocated⟩
    · rintro ⟨noEvent, cluster, member, allocated⟩
      obtain ⟨allocated, noEvent⟩ :=
        (marked.objects cluster member block).mpr ⟨allocated, noEvent⟩
      exact ⟨noEvent, cluster, member, allocated⟩
  · intro alive
    exact (marked.visited_of_alive graph isObject alive).1
  · intro reached
    apply (marked.alive block reached).mpr
    rcases holds.complete noStaleMarks finished reached with
      isVisited | ⟨alive, _⟩
    · exact .inr isVisited
    · exact .inl alive

/-- The mark is apart from the flag of an event. -/
theorem isEvent_congr
    {memory memory' : Memory}
    {block : Nat}
    (same : dataFlags memory' block ||| HB_Alive =
      dataFlags memory block ||| HB_Alive) :
    isEvent memory' block = isEvent memory block := by
  have apart (flags : Nat) :
      (flags ||| HB_Alive) &&& HB_Event = flags &&& HB_Event := by
    rw [Nat.and_or_distrib_right]
    exact Nat.or_zero _
  rw [isEvent, isEvent, isFlagSet, isFlagSet, ← apart (dataFlags memory' block),
    same, apart]

/-- A sweep leaves the flag of an event. -/
theorem isEvent_of_sweptId
    {memory memory' : Memory}
    {block : Nat}
    (swept : memory' block = sweptId memory block) :
    isEvent memory' block = isEvent memory block := by
  rw [sweptId] at swept
  split at swept
  · exact isEvent_congr (congrArg (· ||| HB_Alive) (fields_congr swept).2.1)
  · have flags := (fields_congr swept).2.1
    exact isEvent_congr
      (flags ▸ (SameButMark.markDead memory block).flags)

end Collection

end GarbageCollector

end NanoClr
