import NanoClr.GarbageCollector.MarkInvariant

/-!
# Runs of `Mark`

The invariant holds throughout a run whose pushes find room, and at the end of
`Mark` everything that is reached was visited.
-/

namespace NanoClr

open HeapBlock HeapCluster

namespace GarbageCollector

section Runs

variable
  {input : MarkInput}
  {visited handed : Nat → Prop}
  {state later : MarkState}
  {event : CollectEvent}

theorem Worklist.Step.mono
    {allocated allocated' : Memory → Prop}
    {weakDelegates : Nat}
    {work work' : Worklist}
    (more : ∀ memory, allocated memory → allocated' memory)
    {block : Option Nat}
    (steps : Worklist.Step allocated weakDelegates work block work') :
    Worklist.Step allocated' weakDelegates work block work' := by
  cases steps with
  | next memory nonempty source =>
      exact .next work memory nonempty (source.imp_right (more memory))
  | pop block num rest noRange top nonempty =>
      exact .pop work block num rest noRange top nonempty
  | drop several behind => exact .drop work several behind

/-- The invariant holds at the start. -/
theorem CollectStart.invariant
    (graph : GraphWellFormed input)
    (starts : CollectStart input state) :
    MarkInvariant input (fun _ => False) (fun _ => False) state := by
  obtain ⟨memoryIs, count, current, ⟨stack, first⟩, space, weak, noScan, phase,
    _⟩ := starts
  have nonzero := graph.sentinel
  have atHead : head input.weakDelegatesReachable + 1 =
      input.weakDelegatesReachable := by
    rw [head]
    omega
  have other {address : Nat}
      (outside : address < input.weakDelegatesReachable ∨
        input.weakDelegatesReachable + 3 ≤ address) :
      state.collector.memory address = input.memory address := by
    rw [memoryIs]
    simp (disch := omega) only [dblLinkedListInitialize,
      Function.update_of_ne]
  have sentinel (cluster : Nat) (member : cluster ∈ input.clusters)
      (address : Nat) (lower : cluster ≤ address)
      (upper : address < payloadEnd input.memory cluster) :
      state.collector.memory address = input.memory address := by
    apply other
    have first := graph.sentinelOutside cluster member 0 (by decide)
    have second := graph.sentinelOutside cluster member 1 (by decide)
    have third := graph.sentinelOutside cluster member 2 (by decide)
    omega
  have rewrites : Rewrites input.heap state.collector.memory := by
    refine ⟨?_, ?_⟩
    · intro address unused
      apply other
      by_contra inside
      apply unused
      left
      intro cluster member
      have := graph.sentinelOutside cluster member
        (address - input.weakDelegatesReachable) (by omega)
      rw [show input.weakDelegatesReachable +
        (address - input.weakDelegatesReachable) = address by omega] at this
      exact this
    · intro cluster member block allocated
      obtain ⟨blocks, own⟩ := graph.laid.clusters cluster member
      have place := own.place (own.allocated_iff.mp allocated).1
      have sameId := sentinel cluster member block (by omega) (by
        simp only [MarkInput.heap] at place
        omega)
      exact ⟨by rw [dataTypeCode, dataTypeCode, sameId]; rfl,
        (fields_congr sameId).2.2⟩
  have allocatedId {cluster : Nat} (member : cluster ∈ input.clusters)
      {block : Nat} (allocated : Allocated input.memory cluster block) :
      state.collector.memory block = input.memory block := by
    obtain ⟨blocks, own⟩ := graph.laid.clusters cluster member
    have place := own.place (own.allocated_iff.mp allocated).1
    simp only [MarkInput.heap] at place
    exact sentinel cluster member block (by omega) (by omega)
  have reachedWord {block : Nat} (reached : Reached input block)
      {offset : Nat} (bound : offset < headerWords input.memory block) :
      state.collector.memory (block + offset) =
        input.memory (block + offset) := by
    apply other
    have := graph.sentinelApart block reached
    omega
  have marked : Marked input (fun _ => False) state.collector.memory := by
    refine {
      laid := rewrites.laid graph.laid
      bounds := fun cluster member => rewrites.bounds graph.laid member
      inUse := fun address used =>
        (rewrites.inUse_iff graph.laid address).mpr used
      objects := ?_
      same := ?_
      header := fun block reached offset _ bound _ => reachedWord reached bound
      alive := ?_
      unreached := ?_
      last := .inl ?_ }
    · intro cluster member block
      rw [rewrites.allocated_iff graph.laid member]
      apply and_congr_right
      intro allocated
      rw [isEvent, isFlagSet, (fields_congr (allocatedId member allocated)).2.1]
      rfl
    · intro block reached
      have bounds := headerWords_bounds input.memory block
      have sameId := reachedWord reached (show 0 < _ by omega)
      rw [Nat.add_zero] at sameId
      exact ⟨by rw [dataTypeCode, dataTypeCode, sameId],
        (fields_congr sameId).2.2⟩
    · intro block reached
      have bounds := headerWords_bounds input.memory block
      have sameId := reachedWord reached (show 0 < _ by omega)
      rw [Nat.add_zero] at sameId
      rw [or_false, isAlive, isFlagSet, (fields_congr sameId).2.1]
      rfl
    · rintro block ⟨notEvent, cluster, member, allocated⟩ _
      rw [isAlive, isFlagSet, (fields_congr (allocatedId member allocated)).2.1]
      exact graph.unmarked block ⟨notEvent, cluster, member, allocated⟩
    · rw [memoryIs]
      simp [dblLinkedListInitialize]
  have onlyFirst : ∀ list < state.collector.listCount, list = 0 := by
    intro list bound
    omega
  have noneBelow : ∀ list, ¬ list < state.collector.markStack := by
    intro list bound
    omega
  have inUse : state.collector.markStack < state.collector.listCount := by omega
  refine ⟨?_, ?_, weak, ?_, ?_⟩
  · rw [workOf_idle noScan]
    refine ⟨marked, fun _ => False.elim, ?_, fun _ => False.elim,
      fun _ _ => False.elim, fun _ => False.elim⟩
    rintro block (⟨index, bound, _⟩ | onStack)
    · exact absurd bound (Nat.not_lt_zero index)
    · exact absurd onStack onStack_nil
  · rw [ListsWellFormed, noScan]
    refine ⟨⟨inUse, ?_, ?_, ?_, ?_, ?_⟩, current, ?_⟩
    · intro list bound
      rw [onlyFirst list bound, first]
      exact (by decide : 2 ≤ c_minimumSpaceForGC)
    · intro list bound
      rw [onlyFirst list bound, first]
      rfl
    · intro list bound
      rw [onlyFirst list bound, first]
      rfl
    · intro list bound
      exact absurd bound (noneBelow list)
    · intro list bound
      exact absurd bound (noneBelow list)
    · rw [first]
      rfl
  · rw [phase]
    exact ⟨fun _ _ => .inl, fun _ _ => .inl, fun _ _ => .inl⟩
  · rw [AtPlace, phase]
    exact fun _ => id

/-- While a block is scanned, the place does not depend on memory. -/
theorem AtPlace.scanning
    (place : AtPlace input state)
    {scan : Scan}
    (scans : state.scan = some scan)
    (collector : Collector)
    (scan' : Option Scan) :
    AtPlace input { state with collector, scan := scan' } := by
  rw [AtPlace] at place ⊢
  simp only at place ⊢
  cases isPhase : state.phase with
  | roots remaining =>
      rw [isPhase] at place
      exact place
  | test final =>
      rw [isPhase, scans] at place
      cases place
  | walk final clusters block =>
      rw [isPhase, scans] at place
      cases clusters with
      | nil => cases place
      | cons cluster rest => cases place.1
  | advance final clusters block =>
      rw [isPhase] at place
      cases clusters with
      | nil => exact place
      | cons cluster rest =>
          refine ⟨place.1, .inl ?_⟩
          rcases place.2 with isObject | ⟨idle, _⟩
          · exact isObject
          · rw [scans] at idle
            cases idle
  | finalizers remaining =>
      rw [isPhase] at place
      exact place
  | finished =>
      rw [isPhase, scans] at place
      cases place.1
/-- What a step does to memory, and what was visited after it: it leaves both,
or it visits the next block, in memory as it was or as an allocation left it. -/
inductive Effect
    (input : MarkInput)
    (visited : Nat → Prop)
    (state : MarkState)
    (event : CollectEvent)
    (later : MarkState) : (Nat → Prop) → Prop
  | rest
      (visitsNone : ∀ block, ¬ VisitsNext state event block)
      (same : later.collector.memory = state.collector.memory) :
      Effect input visited state event later visited
  | visit {block : Nat} {memory : Memory}
      (visits : VisitsNext state event block)
      (reached : Reached input block)
      (source : memory = state.collector.memory ∨
        Allocates ⟨state.collector.memory, input.clusters⟩ memory)
      (memoryIs : later.collector.memory =
        (visit memory input.weakDelegatesReachable block).1) :
      Effect input visited state event later
        (fun other => visited other ∨ other = block)

/-- A step visits at most one block. -/
theorem VisitsNext.unique
    {block other : Nat}
    (visits : VisitsNext state event block)
    (visitsOther : VisitsNext state event other) :
    block = other := by
  unfold VisitsNext at visits visitsOther
  split at visits
  · rename_i scans
    simp only [scans, visits] at visitsOther
    exact Option.some.inj visitsOther
  · exact visits.elim

/-- What the invariant says about memory. -/
theorem MarkInvariant.marked_memory
    (holds : MarkInvariant input visited handed state) :
    Marked input visited state.collector.memory := by
  have marked := holds.scanned.marked
  unfold workOf at marked
  split at marked <;> exact marked

/-- A round of the marking loop that finds room keeps the invariant. -/
theorem MarkInvariant.round
    (graph : GraphWellFormed input)
    (holds : MarkInvariant input visited handed state)
    {allocate : Nat → Option Memory}
    (room : StepFindsRoom state (.round allocate))
    (steps : CollectStep input state (.round allocate) later) :
    ∃ visited', MarkInvariant input visited' handed later ∧
      Effect input visited state (.round allocate) later visited' := by
  have scanned := holds.scanned
  have lists := holds.lists
  have place := holds.place
  have weakIs := holds.weak
  cases steps with
  | next scans allocates rounds =>
      rename_i scan scan' collector
      rw [ListsWellFormed, scans] at lists
      simp only [StepFindsRoom, scans] at room
      simp only [workOf, scans] at scanned
      obtain ⟨_, isDone, _⟩ | ⟨_, _, isNext, wellFormed, refines, weak⟩ :=
        lists.refines room
      · rw [isDone] at rounds
        cases rounds
      · rw [isNext] at rounds
        cases rounds
        rw [weakIs] at refines
        have refines := refines.mono fun memory granted =>
          allocates _ memory granted.choose_spec
        have place' := place.scanning scans collector (some scan')
        cases visits : nextBlock allocate state.collector scan with
        | none =>
            rw [visits] at refines
            obtain ⟨sameMemory, scanned'⟩ := scanned.stepDrop refines
            refine ⟨visited, ⟨scanned', wellFormed, weak.trans weakIs,
              holds.covers, place'⟩, .rest ?_ sameMemory⟩
            intro block isNext
            simp only [VisitsNext, scans, visits] at isNext
            cases isNext
        | some block =>
            rw [visits] at refines
            obtain ⟨reached, ⟨memory, source, memoryIs⟩, scanned'⟩ :=
              scanned.stepVisit graph refines
            refine ⟨_, ⟨scanned', wellFormed, weak.trans weakIs, holds.covers,
              place'⟩, .visit ?_ reached source memoryIs⟩
            simp only [VisitsNext, scans]
            exact visits
  | done scans allocates rounds =>
      rename_i scan collector
      rw [ListsWellFormed, scans] at lists
      simp only [StepFindsRoom, scans] at room
      simp only [workOf, scans] at scanned
      obtain ⟨_, isDone, idle, noRange, empty, memory, space, weak⟩ |
        ⟨_, _, isNext, _⟩ := lists.refines room
      · rw [isDone] at rounds
        cases rounds
        have isEmpty : worklist state.collector scan =
            ⟨state.collector.memory, state.collector.outOfStackSpaceForGC,
              scan.lst, 0, []⟩ := by
          rw [worklist, noRange, empty]
        rw [isEmpty] at scanned
        refine ⟨visited, ⟨?_, idle, weak.trans weakIs, holds.covers,
          place.scanning scans collector none⟩, .rest ?_ memory⟩
        · rw [workOf_idle rfl]
          simp only
          rw [memory, space]
          exact scanned.restLst
        · intro block isNext
          simp [VisitsNext, scans, nextBlock, noRange, empty] at isNext
      · rw [isNext] at rounds
        cases rounds

/-- Every step keeps the invariant. -/
theorem MarkInvariant.step
    (graph : GraphWellFormed input)
    (holds : MarkInvariant input visited handed state)
    (room : StepFindsRoom state event)
    (steps : CollectStep input state event later) :
    ∃ visited' handed', MarkInvariant input visited' handed' later ∧
      Effect input visited state event later visited' := by
  cases event with
  | control =>
      cases steps with
      | control idle steps =>
          obtain ⟨⟨handed', holds'⟩, sameMemory⟩ :=
            holds.control graph idle steps
          refine ⟨visited, handed', holds', .rest ?_ sameMemory⟩
          intro block isNext
          simp only [VisitsNext, idle] at isNext
  | round allocate =>
      obtain ⟨visited', holds', effect⟩ := holds.round graph room steps
      exact ⟨visited', handed, holds', effect⟩

/-- The invariant holds after every run whose pushes find room. -/
theorem CollectRun.invariant
    (graph : GraphWellFormed input)
    {taken : List (MarkState × CollectEvent)}
    (run : CollectRun input taken state)
    (room : ∀ entry ∈ taken, StepFindsRoom entry.1 entry.2) :
    ∃ visited handed, MarkInvariant input visited handed state := by
  refine Run.invariant_of
    (fun state => ∃ visited handed, MarkInvariant input visited handed state)
    StepFindsRoom ?_ ?_ run room
  · intro state starts
    exact ⟨_, _, starts.invariant graph⟩
  · rintro state event later ⟨visited, handed, holds⟩ room steps
    obtain ⟨visited', handed', holds', _⟩ := holds.step graph room steps
    exact ⟨visited', handed', holds'⟩

/-! ## Marking is complete -/

/-- At the end of `Mark` everything that is reached was visited, unless it is a
leaf that carried a mark before. -/
theorem MarkInvariant.complete
    (noStaleMarks : NoStaleMarks input)
    (holds : MarkInvariant input visited handed state)
    (finished : state.phase = .finished)
    {block : Nat}
    (reached : Reached input block) :
    visited block ∨
      isAlive input.memory block = true ∧ IsLeaf input.memory block := by
  have scanned := holds.scanned
  have covers := holds.covers
  have place := holds.place
  rw [AtPlace, finished] at place
  obtain ⟨idle, kept⟩ := place
  rw [workOf_idle idle, finished] at scanned
  rw [finished] at covers
  have ofHanded {block : Nat} (isHanded : handed block) : visited block := by
    rcases scanned.roots block isHanded with
      isVisited | onStack | ⟨_, index, bound, _⟩
    · exact isVisited
    · exact absurd onStack onStack_nil
    · exact absurd bound (Nat.not_lt_zero index)
  induction reached with
  | entry isEntry =>
      rename_i block
      have covered : handed block ∨ isAlive input.memory block = true := by
        rcases isEntry.2 with isRoot | isFinalizer
        · exact (covers.single block isEntry.1 isRoot).resolve_left
            List.not_mem_nil
        · exact (covers.finalizers block isEntry.1 isFinalizer).resolve_left
            List.not_mem_nil
      rcases covered with isHanded | alive
      · exact .inl (ofHanded isHanded)
      · rcases noStaleMarks.1 block isEntry with dead | leaf
        · rw [alive] at dead
          cases dead
        · exact .inr ⟨alive, leaf⟩
  | slot isSlot =>
      obtain ⟨lst, num, isRoot, nonzero, inRange⟩ := isSlot
      have all := (covers.multiple lst num isRoot).resolve_left
        List.not_mem_nil
      exact .inl (ofHanded (all nonzero _ inRange))
  | field reached isField inductionHypothesis =>
      rename_i owner block
      rcases inductionHypothesis with isVisited | ⟨_, leaf⟩
      · left
        rcases scanned.fields kept owner isVisited (fun excused => excused) with
          ⟨none', _⟩ | closed
        · cases none'
        · rcases closed block isField with
            wasVisited | ⟨index, bound, _⟩ | onStack
          · exact wasVisited
          · exact absurd bound (Nat.not_lt_zero index)
          · exact absurd onStack onStack_nil
      · obtain ⟨index, bound, _⟩ := isField
        rw [leaf.2.1] at bound
        exact absurd bound (Nat.not_lt_zero index)
  | target reached nonzero inductionHypothesis =>
      rename_i block
      rcases inductionHypothesis with isVisited | ⟨_, leaf⟩
      · have alive : isAlive state.collector.memory
            (target input.memory block) = true := by
          rcases scanned.targets block isVisited nonzero with alive | ⟨none', _⟩
          · exact alive
          · cases none'
        rcases (scanned.marked.alive _ (reached.target nonzero)).mp alive with
          before | wasVisited
        · rcases noStaleMarks.2 block reached nonzero with dead | leaf
          · rw [before] at dead
            cases dead
          · exact .inr ⟨before, leaf⟩
        · exact .inl wasVisited
      · exact absurd leaf.1 nonzero

end Runs

end GarbageCollector

end NanoClr
