import NanoClr.GarbageCollector.MarkRuns

/-!
# Marking without memory for further lists

While no mark stack list can be allocated, the marking loop is deterministic:
it takes the next block while the first list is not full, and drops a range
when it is.
-/

namespace NanoClr

open HeapBlock HeapCluster

namespace GarbageCollector

/-! ## The first list only -/

/-- Every allocation fails. -/
def noAllocation : Nat → Option Memory := fun _ => none

/-- No list besides the first was ever allocated. -/
def FirstListOnly (collector : Collector) : Prop :=
  collector.listCount = 1 ∧ (collector.lists 0).size = c_minimumSpaceForGC

/-- The block that is taken next, and the stack behind it. -/
def nextTaken (lst num : Nat) (stack : List MarkStackElement) :
    Option (Nat × List MarkStackElement) :=
  if num = 0 then
    stack.head?.map fun top =>
      (top.ptr, rangeOf (top.ptr + 3) (top.num - 1) ++ stack.tail)
  else if 1 < num ∧ c_minimumSpaceForGC - 1 ≤ stack.length then none
  else some (lst, rangeOf (lst + 3) (num - 1) ++ stack)

/-- The collector after a round. -/
def after : LoopStep (Collector × Scan) Collector → Collector
  | .done collector => collector
  | .next (collector, _) => collector

section Lists

variable {collector : Collector} {scan : Scan}

theorem granted_noAllocation : granted noAllocation = none := by
  simp [granted, noAllocation]

theorem noAllocation_allocates (heap : Heap) :
    ∀ cElement memory, noAllocation cElement = some memory →
      Allocates heap memory := by
  intro cElement memory given
  cases given

theorem size_saveState (list : Nat) :
    ((saveState collector scan).lists list).size =
      (collector.lists list).size := by
  by_cases same : list = collector.markStack
  · subst same
    simp [saveState]
  · simp [saveState, same]

theorem size_setElement
    (pointer : ElementPointer)
    (value : MarkStackElement)
    (list : Nat) :
    ((setElement collector pointer value).lists list).size =
      (collector.lists list).size := by
  by_cases same : list = pointer.list
  · subst same
    simp [setElement]
  · simp [setElement, same]

/-- A round without allocations stays on the first list. -/
theorem FirstListOnly.round
    (only : FirstListOnly collector)
    (scan : Scan) :
    FirstListOnly (after (round noAllocation collector scan)) := by
  unfold GarbageCollector.round
  split
  · split
    · split
      · exact ⟨only.1, (size_saveState 0).trans only.2⟩
      · exact ⟨only.1,
          (size_setElement _ _ 0).trans ((size_saveState 0).trans only.2)⟩
    · exact ⟨only.1, (size_setElement _ _ 0).trans only.2⟩
  · split
    · have makes : ∀ collector' scan',
          makeRoom noAllocation collector scan = some (collector', scan') →
            FirstListOnly collector' := by
        intro collector' scan' makes
        unfold makeRoom at makes
        rw [granted_noAllocation] at makes
        split at makes
        · split at makes
          · cases makes
            exact ⟨only.1, (size_saveState 0).trans only.2⟩
          · split at makes <;> cases makes
        · cases makes
          exact only
      split
      · exact only
      · rename_i collector' scan' isMade
        have only' := makes collector' scan' isMade
        exact ⟨only'.1, (size_setElement _ _ 0).trans only'.2⟩
    · exact only

theorem length_segment (elements : Nat → MarkStackElement) (top : Nat) :
    (segment elements top).length = top := by
  induction top with
  | zero => rfl
  | succ top inductionHypothesis =>
      rw [segment, List.length_cons, inductionHypothesis]

/-- Without allocations a push finds room unless the first list is full. -/
theorem FirstListOnly.makeRoom_isNone
    (only : FirstListOnly collector)
    (scanning : Scanning collector scan) :
    (makeRoom noAllocation collector scan).isNone = true ↔
      c_minimumSpaceForGC - 1 ≤ (contents collector scan).length := by
  have first : collector.markStack = 0 := by
    have := scanning.current
    rw [only.1] at this
    omega
  have inFirst : scan.stack.list = 0 := scanning.inCurrent.trans first
  have below := scanning.below
  have isLast : scan.stackLast = ⟨0, c_minimumSpaceForGC - 1⟩ := by
    rw [scanning.stackLast, first, scanning.last 0 (by rw [only.1]; decide),
      only.2]
  rw [first, only.2] at below
  have lengthIs : (contents collector scan).length = scan.stack.index := by
    rw [contents, first, lowerLists, List.append_nil, length_segment]
  have full_iff : scan.stack = scan.stackLast ↔
      c_minimumSpaceForGC - 1 ≤ scan.stack.index := by
    rw [isLast]
    constructor
    · intro same
      rw [same]
    · intro beyond
      obtain ⟨stackList, ⟨list, index⟩, stackLast, lst, num⟩ := scan
      simp only at inFirst below beyond ⊢
      congr 1
      omega
  have noOther : ¬ scan.stackList + 1 < collector.listCount := by
    rw [only.1]
    omega
  rw [lengthIs, ← full_iff, makeRoom, granted_noAllocation, if_neg noOther]
  by_cases isFull : scan.stack = scan.stackLast
  · rw [if_pos isFull]
    exact iff_of_true (by split <;> rfl) isFull
  · rw [if_neg isFull]
    exact iff_of_false (by simp) isFull

theorem FirstListOnly.hasRoom (only : FirstListOnly collector) :
    HasRoom noAllocation collector scan := by
  intro _ _
  refine ⟨?_, ?_⟩
  · rw [only.1]
    omega
  · intro _ memory
    rw [granted_noAllocation]
    exact (Option.some_ne_none (1, memory)).symm

end Lists

/-! ## States of a trace -/

/-- The marking loop runs, with the given range to visit next and the given
stack. -/
structure Traced
    (input : MarkInput)
    (visited : Nat → Prop)
    (phase : Phase)
    (dropped : Bool)
    (lst num : Nat)
    (stack : List MarkStackElement)
    (state : MarkState) : Prop where
  marked : Marked input visited state.collector.memory
  weak : state.collector.weakDelegatesReachable = input.weakDelegatesReachable
  only : FirstListOnly state.collector
  scans : ∃ scan, state.scan = some scan ∧ Scanning state.collector scan ∧
    worklist state.collector scan =
      ⟨state.collector.memory, dropped, lst, num, stack⟩
  place : state.phase = phase

/-- The marking loop does not run. -/
structure Resting
    (input : MarkInput)
    (visited : Nat → Prop)
    (phase : Phase)
    (dropped : Bool)
    (state : MarkState) : Prop where
  marked : Marked input visited state.collector.memory
  weak : state.collector.weakDelegatesReachable = input.weakDelegatesReachable
  only : FirstListOnly state.collector
  idle : state.scan = none
  lists : Idle state.collector
  space : state.collector.outOfStackSpaceForGC = dropped
  place : state.phase = phase

/-- Steps that find room lead from one state to another. -/
abbrev LeadsTo (input : MarkInput) : MarkState → MarkState → Prop :=
  Leads (CollectStep input) StepFindsRoom

/-- The range that a visit leaves: a target that is not alive, or the fields. -/
def LeavesRange
    (input : MarkInput)
    (visited : Nat → Prop)
    (block lst num : Nat) : Prop :=
  (target input.memory block ≠ 0 ∧
    isAlive input.memory (target input.memory block) = false ∧
    ¬ visited (target input.memory block) ∧
    lst = target input.memory block ∧ num = 1) ∨
  (target input.memory block ≠ 0 →
    isAlive input.memory (target input.memory block) = true ∨
      visited (target input.memory block)) ∧
  (lst, num) = fieldRange input.memory block

section Trace

variable
  {input : MarkInput}
  {visited : Nat → Prop}
  {phase : Phase}
  {dropped : Bool}
  {lst num : Nat}
  {stack : List MarkStackElement}
  {state : MarkState}

/-- A single step leads on. -/
theorem leadsTo_step
    {later : MarkState}
    {event : CollectEvent}
    (room : StepFindsRoom state event)
    (steps : CollectStep input state event later) :
    LeadsTo input state later :=
  .single ⟨event, room, steps⟩

/-- What a visit leaves to be scanned, as the trace says it. -/
theorem LeavesRange.visit_range
    (graph : GraphWellFormed input)
    {memory : Memory}
    (marked : Marked input visited memory)
    {block : Nat}
    (reached : Reached input block)
    {lst num : Nat}
    (leaves : LeavesRange input (fun other => visited other ∨ other = block)
      block lst num) :
    (visit memory input.weakDelegatesReachable block).2 = (lst, num) := by
  obtain ⟨marked', _⟩ := marked.visit_memory graph reached
  rw [marked.visit_range graph reached]
  rcases leaves with ⟨nonzero, unmarked, fresh, rfl, rfl⟩ | ⟨alive, range⟩
  · apply if_pos
    refine ⟨nonzero, ?_⟩
    rw [← Bool.not_eq_true, marked'.alive _ (reached.target nonzero), unmarked]
    simpa using fresh
  · rw [range]
    apply if_neg
    rintro ⟨nonzero, dead⟩
    rw [(marked'.alive _ (reached.target nonzero)).mpr (alive nonzero)] at dead
    cases dead

/-- A round that visits the next block. -/
theorem Traced.visit
    (graph : GraphWellFormed input)
    (traced : Traced input visited phase dropped lst num stack state)
    {block : Nat}
    {rest : List MarkStackElement}
    (takes : nextTaken lst num stack = some (block, rest))
    (reached : Reached input block)
    {lst' num' : Nat}
    (leaves : LeavesRange input (fun other => visited other ∨ other = block)
      block lst' num') :
    ∃ later,
      VisitsNext state (.round noAllocation) block ∧
      (StepFindsRoom state (.round noAllocation) ∧
        CollectStep input state (.round noAllocation) later) ∧
      LeadsTo input state later ∧
      Traced input (fun other => visited other ∨ other = block) phase dropped
        lst' num' rest later := by
  obtain ⟨scan, scans, scanning, work⟩ := traced.scans
  have room : HasRoom noAllocation state.collector scan := traced.only.hasRoom
  have lstIs : scan.lst = lst := congrArg Worklist.lst work
  have numIs : scan.num = num := congrArg Worklist.num work
  have stackIs : contents state.collector scan = stack :=
    congrArg Worklist.stack work
  have isFull := traced.only.makeRoom_isNone scanning
  rw [stackIs] at isFull
  have range := leaves.visit_range graph traced.marked reached
  obtain ⟨marked', _⟩ := traced.marked.visit_memory graph reached
  have visitsNext : nextBlock noAllocation state.collector scan =
      some block := by
    rw [nextBlock]
    simp only [lstIs, numIs, stackIs, isFull]
    unfold nextTaken at takes
    split at takes
    · rename_i noRange
      rw [if_pos noRange]
      obtain ⟨top, isTop, same⟩ := Option.map_eq_some_iff.mp takes
      rw [isTop, ← (Prod.mk.inj same).1]
      rfl
    · rename_i range
      rw [if_neg range]
      by_cases isFull : 1 < num ∧ c_minimumSpaceForGC - 1 ≤ stack.length
      · rw [if_pos isFull] at takes
        cases takes
      · rw [if_neg isFull] at takes
        cases takes
        rw [if_neg isFull]
  obtain ⟨_, _, _, noRange, empty, _⟩ |
    ⟨collector', scan', isNext, scanning', refines, weak⟩ :=
    scanning.refines room
  · rw [nextBlock, if_pos noRange, empty] at visitsNext
    cases visitsNext
  · have only' : FirstListOnly collector' := by
      have only := traced.only.round scan
      rw [isNext] at only
      exact only
    have steps : CollectStep input state (.round noAllocation)
        { state with collector := collector', scan := some scan' } :=
      .next scans (noAllocation_allocates _) isNext
    have visits : VisitsNext state (.round noAllocation) block := by
      simp only [VisitsNext, scans]
      exact visitsNext
    have findsRoom : StepFindsRoom state (.round noAllocation) := by
      simp only [StepFindsRoom, scans]
      exact room
    refine ⟨_, visits, ⟨findsRoom, steps⟩, leadsTo_step findsRoom steps, ?_⟩
    have work' : worklist collector' scan' =
        (worklist state.collector scan).visitBlock state.collector.memory
          input.weakDelegatesReachable block rest := by
      rw [visitsNext, work, traced.weak] at refines
      generalize worklist collector' scan' = later at refines
      cases refines with
      | next memory nonempty source =>
          rcases source with rfl | ⟨size, allocated⟩
          · rw [work]
            unfold nextTaken at takes
            simp only at nonempty
            rw [if_neg nonempty] at takes
            split at takes <;> cases takes
            rfl
          · cases allocated
      | pop block num rest noRange top nonempty =>
          rw [work]
          simp only at noRange top
          simp only [nextTaken, noRange, top, if_true, List.head?_cons,
            Option.map_some, List.tail_cons, Option.some.injEq,
            Prod.mk.injEq, true_and] at takes
          rw [takes]
    have memoryIs : collector'.memory =
        (NanoClr.visit state.collector.memory input.weakDelegatesReachable
          block).1 :=
      congrArg Worklist.memory work'
    refine ⟨?_, weak.trans traced.weak, only', ⟨scan', rfl, scanning', ?_⟩,
      traced.place⟩
    · rw [memoryIs]
      exact marked'
    · rw [work', Worklist.visitBlock, range, memoryIs, work]

/-- A range that finds no room is dropped. -/
theorem Traced.drop
    (traced : Traced input visited phase dropped lst num stack state)
    (several : 1 < num)
    (full : c_minimumSpaceForGC - 1 ≤ stack.length) :
    ∃ later, LeadsTo input state later ∧
      Traced input visited phase true 0 0 stack later := by
  obtain ⟨scan, scans, scanning, work⟩ := traced.scans
  have numIs : scan.num = num := congrArg Worklist.num work
  have stackIs : contents state.collector scan = stack :=
    congrArg Worklist.stack work
  have fails : makeRoom noAllocation state.collector scan = none := by
    have isFull := traced.only.makeRoom_isNone scanning
    rw [stackIs] at isFull
    exact Option.isNone_iff_eq_none.mp (isFull.mpr full)
  have isNext : round noAllocation state.collector scan =
      .next ({ state.collector with outOfStackSpaceForGC := true },
        { scan with lst := 0, num := 0 }) := by
    rw [round, if_neg (by omega), if_pos (by omega), fails]
  have findsRoom : StepFindsRoom state (.round noAllocation) := by
    simp only [StepFindsRoom, scans]
    exact traced.only.hasRoom
  refine ⟨_, leadsTo_step findsRoom (.next scans (noAllocation_allocates _) isNext),
    traced.marked, traced.weak, traced.only, ⟨_, rfl, ?_, ?_⟩, traced.place⟩
  · exact scanning.congr rfl rfl rfl rfl rfl rfl
  · rw [← stackIs]
    rfl

/-- The loop ends when nothing is left. -/
theorem Traced.finish
    (traced : Traced input visited phase dropped lst 0 [] state) :
    ∃ later, LeadsTo input state later ∧
      Resting input visited phase dropped later := by
  obtain ⟨scan, scans, scanning, work⟩ := traced.scans
  have room : HasRoom noAllocation state.collector scan := traced.only.hasRoom
  have numIs : scan.num = 0 := congrArg Worklist.num work
  have stackIs : contents state.collector scan = [] :=
    congrArg Worklist.stack work
  have space : state.collector.outOfStackSpaceForGC = dropped :=
    congrArg Worklist.dropped work
  have findsRoom : StepFindsRoom state (.round noAllocation) := by
    simp only [StepFindsRoom, scans]
    exact room
  obtain ⟨collector', isDone, idle, _, _, memory, flag, weak⟩ |
    ⟨collector', scan', _, _, refines, _⟩ := scanning.refines room
  · have only' : FirstListOnly collector' := by
      have only := traced.only.round scan
      rw [isDone] at only
      exact only
    refine ⟨_, leadsTo_step findsRoom (.done scans (noAllocation_allocates _) isDone),
      ?_, weak.trans traced.weak, only', rfl, idle, flag.trans space,
      traced.place⟩
    rw [memory]
    exact traced.marked
  · rw [nextBlock, if_pos numIs, stackIs, work] at refines
    generalize worklist collector' scan' = later at refines
    cases refines with
    | drop several => exact absurd several (by simp)

/-- Entering the marking loop. -/
theorem Resting.enter
    (resting : Resting input visited phase dropped state)
    {phase' : Phase}
    {pending : List Nat}
    (lst num : Nat)
    (enters : control input state = some (enterScan
      { state with phase := phase', finalizersPending := pending } lst num)) :
    ∃ later, LeadsTo input state later ∧
      Traced input visited phase' dropped lst num [] later := by
  have findsRoom : StepFindsRoom state .control := by
    simp only [StepFindsRoom, resting.idle]
  refine ⟨_, leadsTo_step findsRoom (.control resting.idle enters),
    resting.marked, resting.weak, resting.only, ⟨_, rfl, ?_, ?_⟩, rfl⟩
  · exact resting.lists.scanning lst num
  · rw [enterScan]
    simp only [worklist]
    rw [resting.lists.contents_nil, resting.space]
    rfl

/-- A step between scans. -/
theorem Resting.move
    (resting : Resting input visited phase dropped state)
    {phase' : Phase}
    {dropped' : Bool}
    (moves : control input state = some { state with
      collector := { state.collector with outOfStackSpaceForGC := dropped' }
      phase := phase' }) :
    ∃ later, LeadsTo input state later ∧
      Resting input visited phase' dropped' later := by
  have findsRoom : StepFindsRoom state .control := by
    simp only [StepFindsRoom, resting.idle]
  exact ⟨_, leadsTo_step findsRoom (.control resting.idle moves),
    resting.marked, resting.weak, resting.only, resting.idle,
    ⟨resting.lists.toMarkStacks.congr rfl rfl rfl, resting.lists.first,
      resting.lists.empty⟩, rfl, rfl⟩

/-- A step between scans that keeps the flag. -/
theorem Resting.go
    (resting : Resting input visited phase dropped state)
    {phase' : Phase}
    (moves : control input state = some { state with phase := phase' }) :
    ∃ later, LeadsTo input state later ∧
      Resting input visited phase' dropped later := by
  apply resting.move
  rw [moves, ← resting.space]

end Trace

end GarbageCollector

end NanoClr
