import NanoClr.GarbageCollector.MarkScan

/-!
# The invariant of `Mark`

Between the rounds of the marking loop, `Mark` walks over its roots, the blocks
of the heap and the finalizers.  While a rescan is under way the fields of the
objects ahead of it are excused.
-/

namespace NanoClr

open HeapBlock HeapCluster

namespace GarbageCollector

/-! ## What a place in `Mark` promises -/

/-- The roots that are still to be handed over. -/
def rootsLeft : Phase → List Root
  | .roots remaining => remaining
  | _ => []

/-- The finalizers that are still to be looked at. -/
def finalizersLeft (input : MarkInput) : Phase → List Nat
  | .roots _ | .test false | .walk false _ _ | .advance false _ _ =>
      input.finalizersAlive
  | .finalizers remaining => remaining
  | _ => []

/-- An object lies at or behind an address of the first of some clusters, or in
one of the others. -/
def Ahead (input : MarkInput) (address : Nat) (block : Nat) :
    List Nat → Prop
  | [] => False
  | cluster :: rest =>
      Allocated input.memory cluster block ∧ address ≤ block ∨
        ∃ other ∈ rest, Allocated input.memory other block

/-- The objects that a rescan has yet to come to. -/
def Excused (input : MarkInput) (phase : Phase) (block : Nat) : Prop :=
  match phase with
  | .walk _ clusters address => Ahead input address block clusters
  | .advance _ clusters address => Ahead input (address + 1) block clusters
  | _ => False

/-- What is left is part of the input; a rescan is at a block of the current
cluster or at its end, and while a block is scanned, it is an object. -/
def AtPlace (input : MarkInput) (state : MarkState) : Prop :=
  match state.phase with
  | .roots remaining => ∀ root ∈ remaining, root ∈ input.roots
  | .finalizers remaining =>
      ∀ block ∈ remaining, block ∈ input.finalizersAlive
  | .test _ => state.scan = none
  | .finished =>
      state.scan = none ∧ state.collector.outOfStackSpaceForGC = false
  | .walk _ [] _ => state.scan = none
  | .walk _ (cluster :: rest) block =>
      state.scan = none ∧ (∀ other ∈ cluster :: rest, other ∈ input.clusters) ∧
        ∃ blocks, Laid state.collector.memory cluster blocks ∧
          (block ∈ blocks ∨ block = payloadEnd state.collector.memory cluster)
  | .advance _ [] _ => False
  | .advance _ (cluster :: rest) block =>
      (∀ other ∈ cluster :: rest, other ∈ input.clusters) ∧
        (Allocated input.memory cluster block ∧
            isEvent input.memory block = false ∨
          state.scan = none ∧
            ∃ blocks, Laid state.collector.memory cluster blocks ∧
              block ∈ blocks)

/-- Every root was handed over or is left, unless it is a block that carries a
mark from before. -/
structure Covers
    (input : MarkInput)
    (phase : Phase)
    (handed : Nat → Prop) : Prop where
  multiple : ∀ lst num, Root.multiple lst num ∈ input.roots →
    Root.multiple lst num ∈ rootsLeft phase ∨
      (lst ≠ 0 → ∀ block, InRange lst num block → handed block)
  single : ∀ block, block ≠ 0 → Root.single block ∈ input.roots →
    Root.single block ∈ rootsLeft phase ∨
      handed block ∨ isAlive input.memory block = true
  finalizers : ∀ block, block ≠ 0 → block ∈ input.finalizersAlive →
    block ∈ finalizersLeft input phase ∨
      handed block ∨ isAlive input.memory block = true

/-- The worklist of a state; it is empty between scans. -/
def workOf (state : MarkState) : Worklist :=
  match state.scan with
  | none =>
      { memory := state.collector.memory
        dropped := state.collector.outOfStackSpaceForGC
        lst := 0
        num := 0
        stack := [] }
  | some scan => worklist state.collector scan

/-- The mark stack lists of a state are well formed. -/
def ListsWellFormed (state : MarkState) : Prop :=
  match state.scan with
  | none => Idle state.collector
  | some scan => Scanning state.collector scan

/-- The invariant of `Mark`. -/
structure MarkInvariant
    (input : MarkInput)
    (visited handed : Nat → Prop)
    (state : MarkState) : Prop where
  scanned : Scanned input visited (Excused input state.phase) handed
    (workOf state)
  lists : ListsWellFormed state
  weak : state.collector.weakDelegatesReachable = input.weakDelegatesReachable
  covers : Covers input state.phase handed
  place : AtPlace input state

/-! ## Changing the place between scans -/

section Restart

variable
  {input : MarkInput}
  {visited excused excused' handed handed' : Nat → Prop}
  {memory : Memory}
  {dropped dropped' : Bool}

/-- Between scans the excuses may change, and a range may be entered. -/
theorem Scanned.restart
    (scanned : Scanned input visited excused handed ⟨memory, dropped, 0, 0, []⟩)
    {lst num : Nat}
    (reached : ∀ block, InRange lst num block → Reached input block)
    (excuses : dropped' = false → ∀ owner, visited owner → ¬ excused' owner →
      IsObject input.heap owner →
        (dropped = false ∧ ¬ excused owner) ∨ num = 1 ∧ lst = owner)
    (hands : ∀ block, handed' block →
      handed block ∨ visited block ∨ InRange lst num block)
    (graph : GraphWellFormed input) :
    Scanned input visited excused' handed'
      ⟨memory, dropped', lst, num, []⟩ where
  marked := scanned.marked
  visitedReached := scanned.visitedReached
  waitsReached := by
    rintro block (inRange | onStack)
    · exact reached block inRange
    · exact absurd onStack onStack_nil
  targets := by
    intro block isVisited nonzero
    rcases scanned.targets block isVisited nonzero with alive | ⟨one, _⟩
    · exact .inl alive
    · cases one
  fields := by
    intro kept owner isVisited notExcused
    by_cases owns : 0 < (fieldRange input.memory owner).2
    · have isObject := graph.owners owner
        (scanned.visitedReached owner isVisited) (.inl owns)
      rcases excuses kept owner isVisited notExcused isObject with
        ⟨keptBefore, notExcusedBefore⟩ | isNext
      · rcases scanned.fields keptBefore owner isVisited notExcusedBefore with
          ⟨one, _⟩ | closed
        · cases one
        · right
          intro block isField
          rcases closed block isField with
            wasVisited | ⟨index, bound, _⟩ | onStack
          · exact .inl wasVisited
          · exact absurd bound (Nat.not_lt_zero index)
          · exact absurd onStack onStack_nil
      · exact .inl isNext
    · right
      rintro block ⟨index, bound, _⟩
      exact absurd (Nat.lt_of_le_of_lt (Nat.zero_le index) bound) owns
  roots := by
    intro block isHanded
    rcases hands block isHanded with before | isVisited | inRange
    · rcases scanned.roots block before with
        isVisited | onStack | ⟨_, index, bound, _⟩
      · exact .inl isVisited
      · exact absurd onStack onStack_nil
      · exact absurd bound (Nat.not_lt_zero index)
    · exact .inl isVisited
    · exact .inr (.inr ⟨rfl, inRange⟩)

end Restart

section Control

variable
  {input : MarkInput}
  {visited handed : Nat → Prop}
  {state later : MarkState}

theorem workOf_idle (idle : state.scan = none) :
    workOf state = ⟨state.collector.memory,
      state.collector.outOfStackSpaceForGC, 0, 0, []⟩ := by
  rw [workOf, idle]

/-- Entering a scan between scans. -/
theorem workOf_enterScan
    (lists : ListsWellFormed state)
    (idle : state.scan = none)
    (lst num : Nat) :
    workOf (enterScan state lst num) = ⟨state.collector.memory,
        state.collector.outOfStackSpaceForGC, lst, num, []⟩ ∧
      ListsWellFormed (enterScan state lst num) := by
  rw [ListsWellFormed, idle] at lists
  refine ⟨?_, lists.scanning lst num⟩
  rw [workOf, enterScan]
  simp only [worklist]
  rw [Idle.contents_nil lists]
  rfl

/-- What a state without a scan knows about memory. -/
theorem MarkInvariant.marked
    (holds : MarkInvariant input visited handed state)
    (idle : state.scan = none) :
    Marked input visited state.collector.memory := by
  have marked := holds.scanned.marked
  rwa [workOf_idle idle] at marked

/-- The objects of the input in the heap as it is now. -/
theorem Marked.object_iff
    {memory : Memory}
    (marked : Marked input visited memory)
    {cluster block : Nat}
    (member : cluster ∈ input.clusters)
    {blocks : List Nat}
    (laid : Laid memory cluster blocks) :
    (Allocated input.memory cluster block ∧
      isEvent input.memory block = false) ↔
      block ∈ blocks ∧ isFree memory block = false ∧
        isEvent memory block = false := by
  rw [← marked.objects cluster member block, laid.allocated_iff, and_assoc]

/-- An object that is alive was visited. -/
theorem Marked.visited_of_alive
    {memory : Memory}
    (marked : Marked input visited memory)
    (graph : GraphWellFormed input)
    {block : Nat}
    (isObject : IsObject input.heap block)
    (alive : isAlive memory block = true) :
    Reached input block ∧ visited block := by
  have reached : Reached input block := by
    by_contra notReached
    rw [marked.unreached block isObject notReached] at alive
    cases alive
  refine ⟨reached, ?_⟩
  rcases (marked.alive block reached).mp alive with before | isVisited
  · have unmarked := graph.unmarked block isObject
    rw [unmarked] at before
    cases before
  · exact isVisited

/-- An object lies in the first cluster or ahead in the others, seen from the
start of the first one. -/
theorem ahead_startWalk
    {memory : Memory}
    (marked : Marked input visited memory)
    {clusters : List Nat}
    (members : ∀ cluster ∈ clusters, cluster ∈ input.clusters)
    {block cluster : Nat}
    (member : cluster ∈ clusters)
    (allocated : Allocated input.memory cluster block)
    (notEvent : isEvent input.memory block = false)
    (final : Bool) :
    Excused input (startWalk memory final clusters) block := by
  cases clusters with
  | nil => cases member
  | cons first rest =>
      simp only [startWalk, Excused, Ahead]
      rcases List.mem_cons.mp member with rfl | later
      · left
        refine ⟨allocated, ?_⟩
        have isMember := members cluster List.mem_cons_self
        obtain ⟨blocks, laid⟩ := marked.laid.clusters cluster isMember
        have isBlock := ((marked.object_iff isMember laid).mp
          ⟨allocated, notEvent⟩).1
        have place := laid.place isBlock
        have start : payloadStart memory cluster = cluster + 8 := laid.start
        omega
      · exact .inr ⟨cluster, later, allocated⟩

/-- The place at the start of some clusters. -/
theorem atPlace_startWalk
    {clusters : List Nat}
    {final : Bool}
    (isPhase : state.phase = startWalk state.collector.memory final clusters)
    (marked : Marked input visited state.collector.memory)
    (idle : state.scan = none)
    (members : ∀ cluster ∈ clusters, cluster ∈ input.clusters) :
    AtPlace input state := by
  rw [AtPlace, isPhase]
  cases clusters with
  | nil => exact idle
  | cons first rest =>
      obtain ⟨blocks, laid⟩ :=
        marked.laid.clusters first (members first List.mem_cons_self)
      refine ⟨idle, members, blocks, laid, ?_⟩
      have start : payloadStart state.collector.memory first = first + 8 :=
        laid.start
      rw [start]
      exact laid.tiling.start_mem_or

/-- Entering a scan, or staying between scans, at another place. -/
theorem MarkInvariant.move
    (graph : GraphWellFormed input)
    (holds : MarkInvariant input visited handed state)
    (idle : state.scan = none)
    (outOfSpace : Bool)
    {phase : Phase}
    {handed' : Nat → Prop}
    {pending : List Nat}
    (excuses : outOfSpace = false → ∀ owner, visited owner →
      ¬ Excused input phase owner → IsObject input.heap owner →
        state.collector.outOfStackSpaceForGC = false ∧
          ¬ Excused input state.phase owner)
    (hands : ∀ block, handed' block → handed block ∨ visited block)
    (covers : Covers input phase handed')
    (place : AtPlace input
      { state with
        collector :=
          { state.collector with outOfStackSpaceForGC := outOfSpace }
        phase
        finalizersPending := pending }) :
    MarkInvariant input visited handed'
      { state with
        collector :=
          { state.collector with outOfStackSpaceForGC := outOfSpace }
        phase
        finalizersPending := pending } := by
  have scanned := holds.scanned
  have lists := holds.lists
  rw [workOf_idle idle] at scanned
  rw [ListsWellFormed, idle] at lists
  refine ⟨?_, ?_, holds.weak, covers, place⟩
  · rw [workOf]
    simp only [idle]
    apply scanned.restart _ _ _ graph
    · rintro block ⟨index, bound, _⟩
      exact absurd bound (Nat.not_lt_zero index)
    · intro kept owner isVisited notExcused isObject
      exact .inl (excuses kept owner isVisited notExcused isObject)
    · intro block isHanded
      rcases hands block isHanded with before | isVisited
      · exact .inl before
      · exact .inr (.inl isVisited)
  · rw [ListsWellFormed]
    simp only [idle]
    exact ⟨lists.toMarkStacks.congr rfl rfl rfl, lists.first, lists.empty⟩

/-- Entering a scan at another place. -/
theorem MarkInvariant.enter
    (graph : GraphWellFormed input)
    (holds : MarkInvariant input visited handed state)
    (idle : state.scan = none)
    {phase : Phase}
    {handed' : Nat → Prop}
    {pending : List Nat}
    {lst num : Nat}
    (reached : ∀ block, InRange lst num block → Reached input block)
    (excuses : state.collector.outOfStackSpaceForGC = false →
      ∀ owner, visited owner →
      ¬ Excused input phase owner → IsObject input.heap owner →
        ¬ Excused input state.phase owner ∨ num = 1 ∧ lst = owner)
    (hands : ∀ block, handed' block →
      handed block ∨ visited block ∨ InRange lst num block)
    (covers : Covers input phase handed')
    (place : AtPlace input (enterScan
      { state with phase, finalizersPending := pending } lst num)) :
    MarkInvariant input visited handed' (enterScan
      { state with phase, finalizersPending := pending } lst num) := by
  have scanned := holds.scanned
  rw [workOf_idle idle] at scanned
  have lists : ListsWellFormed
      { state with phase, finalizersPending := pending } := holds.lists
  obtain ⟨work, lists'⟩ := workOf_enterScan lists idle lst num
  refine ⟨?_, lists', holds.weak, covers, place⟩
  rw [work]
  apply scanned.restart reached _ hands graph
  intro kept owner isVisited notExcused isObject
  rcases excuses kept owner isVisited notExcused isObject with same | isNext
  · exact .inl ⟨kept, same⟩
  · exact .inr isNext

/-! ## Steps outside the marking loop -/

/-- Nothing is excused at a place outside a rescan. -/
theorem excuses_same
    {phase : Phase}
    (none' : ∀ block, ¬ Excused input state.phase block) :
    state.collector.outOfStackSpaceForGC = false →
      ∀ owner, visited owner → ¬ Excused input phase owner →
        IsObject input.heap owner →
          state.collector.outOfStackSpaceForGC = false ∧
            ¬ Excused input state.phase owner :=
  fun kept owner _ _ _ => ⟨kept, none' owner⟩

/-- A block that is handed to `CheckSingleBlock`. -/
theorem MarkInvariant.checkSingleBlock
    (graph : GraphWellFormed input)
    (holds : MarkInvariant input visited handed state)
    (idle : state.scan = none)
    (noneExcused : ∀ block, ¬ Excused input state.phase block)
    {phase : Phase}
    {pending : List Nat}
    {block : Nat}
    (reached : block ≠ 0 → Reached input block)
    (covers : ∀ handed' : Nat → Prop, (∀ other, handed other → handed' other) →
      (block = 0 ∨ handed' block ∨ isAlive input.memory block = true) →
        Covers input phase handed')
    (place : ∀ scan, AtPlace input
      { state with phase, scan, finalizersPending := pending }) :
    ∃ handed', MarkInvariant input visited handed'
      (checkSingleBlock
        { state with phase, finalizersPending := pending } block) := by
  unfold GarbageCollector.checkSingleBlock
  by_cases skips : block = 0 ∨ isAlive state.collector.memory block = true
  · rw [if_pos skips]
    let handed' : Nat → Prop := fun other =>
      handed other ∨ visited other ∧ other = block
    have handsBlock : block = 0 ∨ handed' block ∨
        isAlive input.memory block = true := by
      by_cases isZero : block = 0
      · exact .inl isZero
      · have alive := skips.resolve_left isZero
        rcases ((holds.marked idle).alive block (reached isZero)).mp alive with
          before | isVisited
        · exact .inr (.inr before)
        · exact .inr (.inl (.inr ⟨isVisited, rfl⟩))
    refine ⟨handed', holds.move graph idle
      state.collector.outOfStackSpaceForGC (excuses_same noneExcused) ?_
      (covers handed' (fun _ => .inl) handsBlock) (place state.scan)⟩
    rintro other (before | ⟨isVisited, _⟩)
    · exact .inl before
    · exact .inr isVisited
  · rw [if_neg skips]
    rw [not_or] at skips
    let handed' : Nat → Prop := fun other => handed other ∨ other = block
    refine ⟨handed', holds.enter graph idle ?_ ?_ ?_
      (covers handed' (fun _ => .inl) (.inr (.inl (.inr rfl)))) (place _)⟩
    · intro other inRange
      rw [inRange_one.mp inRange]
      exact reached skips.1
    · intro _ owner _ _ _
      exact .inl (noneExcused owner)
    · rintro other (before | rfl)
      · exact .inl before
      · exact .inr (.inr (inRange_one.mpr rfl))

/-- The roots. -/
theorem MarkInvariant.control_roots
    (graph : GraphWellFormed input)
    (holds : MarkInvariant input visited handed state)
    (idle : state.scan = none)
    {remaining : List Root}
    (isPhase : state.phase = .roots remaining)
    (steps : control input state = some later) :
    ∃ handed', MarkInvariant input visited handed' later := by
  have noneExcused : ∀ block, ¬ Excused input state.phase block := by
    intro block
    rw [isPhase]
    exact id
  have covers := holds.covers
  have place := holds.place
  rw [AtPlace, isPhase] at place
  rw [isPhase] at covers
  unfold control at steps
  simp only [isPhase] at steps
  cases remaining with
  | nil =>
      cases steps
      refine ⟨handed, holds.move graph idle
        state.collector.outOfStackSpaceForGC (excuses_same noneExcused)
        (fun _ => .inl) ?_ idle⟩
      exact ⟨covers.multiple, covers.single, covers.finalizers⟩
  | cons root rest =>
      have restPlace : ∀ other ∈ rest, other ∈ input.roots :=
        fun other member => place other (List.mem_cons_of_mem _ member)
      have isRoot := place root List.mem_cons_self
      cases root with
      | single block =>
          cases steps
          apply holds.checkSingleBlock graph idle noneExcused
          · intro nonzero
            exact .entry ⟨nonzero, .inl isRoot⟩
          · intro handed' more handsBlock
            refine ⟨?_, ?_, ?_⟩
            · intro lst num member
              rcases covers.multiple lst num member with left | all
              · rcases List.mem_cons.mp left with same | left
                · cases same
                · exact .inl left
              · exact .inr fun nonzero other inRange =>
                  more other (all nonzero other inRange)
            · intro other nonzero member
              rcases covers.single other nonzero member with left | before
              · rcases List.mem_cons.mp left with same | left
                · cases same
                  exact .inr (handsBlock.resolve_left nonzero)
                · exact .inl left
              · exact .inr (before.imp_left (more other))
            · intro other nonzero member
              exact (covers.finalizers other nonzero member).imp_right
                fun before => before.imp_left (more other)
          · intro scan
            exact restPlace
      | multiple lst num =>
          cases steps
          unfold checkMultipleBlocks
          by_cases isNull : lst = 0
          · rw [if_pos isNull]
            refine ⟨handed, holds.move graph idle
              state.collector.outOfStackSpaceForGC (excuses_same noneExcused)
              (fun _ => .inl) ⟨?_, ?_, covers.finalizers⟩ restPlace⟩
            · intro lst' num' member
              rcases covers.multiple lst' num' member with left | all
              · rcases List.mem_cons.mp left with same | left
                · cases same
                  exact .inr fun nonzero => absurd isNull nonzero
                · exact .inl left
              · exact .inr all
            · intro other nonzero member
              rcases covers.single other nonzero member with left | before
              · rcases List.mem_cons.mp left with same | left
                · cases same
                · exact .inl left
              · exact .inr before
          · rw [if_neg isNull]
            let handed' : Nat → Prop := fun other =>
              handed other ∨ InRange lst num other
            refine ⟨handed', holds.enter graph idle ?_ ?_ ?_ ⟨?_, ?_, ?_⟩
              restPlace⟩
            · rintro block ⟨index, bound, rfl⟩
              exact .slot ⟨lst, num, isRoot, isNull, index, bound, rfl⟩
            · intro _ owner _ _ _
              exact .inl (noneExcused owner)
            · rintro block (before | inRange)
              · exact .inl before
              · exact .inr (.inr inRange)
            · intro lst' num' member
              rcases covers.multiple lst' num' member with left | all
              · rcases List.mem_cons.mp left with same | left
                · cases same
                  exact .inr fun _ other inRange => .inr inRange
                · exact .inl left
              · exact .inr fun nonzero other inRange =>
                  .inl (all nonzero other inRange)
            · intro other nonzero member
              rcases covers.single other nonzero member with left | before
              · rcases List.mem_cons.mp left with same | left
                · cases same
                · exact .inl left
              · exact .inr (before.imp_left .inl)
            · intro other nonzero member
              exact (covers.finalizers other nonzero member).imp_right
                fun before => before.imp_left .inl

/-- The finalizers. -/
theorem MarkInvariant.control_finalizers
    (graph : GraphWellFormed input)
    (holds : MarkInvariant input visited handed state)
    (idle : state.scan = none)
    {remaining : List Nat}
    (isPhase : state.phase = .finalizers remaining)
    (steps : control input state = some later) :
    ∃ handed', MarkInvariant input visited handed' later := by
  have noneExcused : ∀ block, ¬ Excused input state.phase block := by
    intro block
    rw [isPhase]
    exact id
  have covers := holds.covers
  have place := holds.place
  rw [AtPlace, isPhase] at place
  rw [isPhase] at covers
  unfold control at steps
  simp only [isPhase] at steps
  cases remaining with
  | nil =>
      cases steps
      refine ⟨handed, holds.move graph idle
        state.collector.outOfStackSpaceForGC (excuses_same noneExcused)
        (fun _ => .inl) ?_ idle⟩
      exact ⟨covers.multiple, covers.single, covers.finalizers⟩
  | cons block rest =>
      have restPlace : ∀ other ∈ rest, other ∈ input.finalizersAlive :=
        fun other member => place other (List.mem_cons_of_mem _ member)
      have isFinalizer := place block List.mem_cons_self
      have coversRest (handed' : Nat → Prop)
          (more : ∀ other, handed other → handed' other)
          (handsBlock : block = 0 ∨ handed' block ∨
            isAlive input.memory block = true) :
          Covers input (.finalizers rest) handed' := by
        refine ⟨?_, ?_, ?_⟩
        · intro lst num member
          exact (covers.multiple lst num member).imp_right
            fun all nonzero other inRange =>
              more other (all nonzero other inRange)
        · intro other nonzero member
          exact (covers.single other nonzero member).imp_right
            fun before => before.imp_left (more other)
        · intro other nonzero member
          rcases covers.finalizers other nonzero member with left | before
          · rcases List.mem_cons.mp left with same | left
            · subst same
              exact .inr (handsBlock.resolve_left nonzero)
            · exact .inl left
          · exact .inr (before.imp_left (more other))
      have reached (nonzero : block ≠ 0) : Reached input block :=
        .entry ⟨nonzero, .inr isFinalizer⟩
      by_cases alive : isAlive state.collector.memory block = true
      · simp only [alive, if_true] at steps
        cases steps
        let handed' : Nat → Prop := fun other =>
          handed other ∨ visited other ∧ other = block
        have handsBlock : block = 0 ∨ handed' block ∨
            isAlive input.memory block = true := by
          by_cases isZero : block = 0
          · exact .inl isZero
          · rcases ((holds.marked idle).alive block (reached isZero)).mp alive
              with before | isVisited
            · exact .inr (.inr before)
            · exact .inr (.inl (.inr ⟨isVisited, rfl⟩))
        refine ⟨handed', holds.move graph idle
          state.collector.outOfStackSpaceForGC (excuses_same noneExcused) ?_
          (coversRest handed' (fun _ => .inl) handsBlock) restPlace⟩
        rintro other (before | ⟨isVisited, _⟩)
        · exact .inl before
        · exact .inr isVisited
      · simp only [alive] at steps
        cases steps
        exact holds.checkSingleBlock graph idle noneExcused reached coversRest
          fun _ => restPlace

/-- The loop test of `MarkSlow`. -/
theorem MarkInvariant.control_test
    (graph : GraphWellFormed input)
    (holds : MarkInvariant input visited handed state)
    (idle : state.scan = none)
    {final : Bool}
    (isPhase : state.phase = .test final)
    (steps : control input state = some later) :
    MarkInvariant input visited handed later := by
  have covers := holds.covers
  have marked := holds.marked idle
  rw [isPhase] at covers
  unfold control at steps
  simp only [isPhase] at steps
  by_cases outOfSpace : state.collector.outOfStackSpaceForGC = true
  · rw [if_pos outOfSpace] at steps
    cases steps
    have members : ∀ cluster ∈ input.clusters, cluster ∈ input.clusters :=
      fun _ => id
    refine holds.move graph idle false ?_ (fun _ => .inl) ?_ ?_
    · rintro _ owner _ notExcused ⟨notEvent, cluster, member, allocated⟩
      exact absurd (ahead_startWalk marked members member allocated notEvent
        final) notExcused
    · cases clusters : input.clusters with
      | nil => exact ⟨covers.multiple, covers.single, covers.finalizers⟩
      | cons first rest =>
          refine ⟨covers.multiple, covers.single, ?_⟩
          cases final <;> exact covers.finalizers
    · exact atPlace_startWalk rfl marked idle members
  · rw [if_neg outOfSpace] at steps
    have noneExcused : ∀ block, ¬ Excused input state.phase block := by
      intro block
      rw [isPhase]
      exact id
    cases final with
    | true =>
        cases steps
        exact holds.move graph idle state.collector.outOfStackSpaceForGC
          (excuses_same noneExcused) (fun _ => .inl)
          ⟨covers.multiple, covers.single, covers.finalizers⟩
          ⟨idle, by simpa using outOfSpace⟩
    | false =>
        cases steps
        exact holds.move graph idle state.collector.outOfStackSpaceForGC
          (excuses_same noneExcused) (fun _ => .inl)
          ⟨covers.multiple, covers.single, covers.finalizers⟩ (fun _ => id)

/-- A rescan is at a block or at the end of a cluster. -/
theorem MarkInvariant.control_walk
    (graph : GraphWellFormed input)
    (holds : MarkInvariant input visited handed state)
    (idle : state.scan = none)
    {final : Bool}
    {clusters : List Nat}
    {block : Nat}
    (isPhase : state.phase = .walk final clusters block)
    (steps : control input state = some later) :
    MarkInvariant input visited handed later := by
  have covers := holds.covers
  have marked := holds.marked idle
  have place := holds.place
  rw [AtPlace, isPhase] at place
  rw [isPhase] at covers
  unfold control at steps
  simp only [isPhase] at steps
  cases clusters with
  | nil =>
      cases steps
      refine holds.move graph idle state.collector.outOfStackSpaceForGC ?_
        (fun _ => .inl) ?_ idle
      · intro kept owner _ _ _
        refine ⟨kept, ?_⟩
        rw [isPhase]
        exact id
      · refine ⟨covers.multiple, covers.single, ?_⟩
        cases final <;> exact covers.finalizers
  | cons cluster rest =>
      obtain ⟨_, members, blocks, laid, atBlock⟩ := place
      have member := members cluster List.mem_cons_self
      by_cases inside : block < payloadEnd state.collector.memory cluster
      · simp only [inside, if_true] at steps
        have isBlock : block ∈ blocks := by
          rcases atBlock with isBlock | atEnd
          · exact isBlock
          · omega
        have coversAdvance : Covers input
            (.advance final (cluster :: rest) block) handed := by
          refine ⟨covers.multiple, covers.single, ?_⟩
          cases final <;> exact covers.finalizers
        have onlyBlock {owner : Nat}
            (notAhead : ¬ Excused input
              (.advance final (cluster :: rest) block) owner)
            (ahead : Excused input state.phase owner) :
            owner = block ∧ Allocated input.memory cluster owner := by
          rw [isPhase] at ahead
          simp only [Excused, Ahead, not_or, not_and, not_le] at notAhead ahead
          rcases ahead with ⟨allocated, behind⟩ | later
          · have := notAhead.1 allocated
            exact ⟨by omega, allocated⟩
          · exact absurd later notAhead.2
        by_cases scans : isAlive state.collector.memory block = true ∧
            isEvent state.collector.memory block = false
        · rw [if_pos scans] at steps
          cases steps
          have notFree : isFree state.collector.memory block = false := by
            by_contra free
            rw [Bool.not_eq_false] at free
            have dead := laid.unmarked block (mem_freeOf.mpr ⟨isBlock, free⟩)
            rw [dead] at scans
            exact absurd scans.1 Bool.false_ne_true
          obtain ⟨allocated, notEvent⟩ := (marked.object_iff member laid).mpr
            ⟨isBlock, notFree, scans.2⟩
          have isObject : IsObject input.heap block :=
            ⟨notEvent, cluster, member, allocated⟩
          obtain ⟨reached, _⟩ :=
            marked.visited_of_alive graph isObject scans.1
          have nonzero : block ≠ 0 := by
            have := laid.place isBlock
            omega
          unfold checkMultipleBlocks
          rw [if_neg nonzero]
          refine holds.enter graph idle ?_ ?_ (fun _ => .inl) coversAdvance
            ⟨members, .inl ⟨allocated, notEvent⟩⟩
          · intro other inRange
            rw [inRange_one.mp inRange]
            exact reached
          · intro _ owner _ notAhead _
            by_cases ahead : Excused input state.phase owner
            · exact .inr ⟨rfl, (onlyBlock notAhead ahead).1.symm⟩
            · exact .inl ahead
        · rw [if_neg scans] at steps
          cases steps
          refine holds.move graph idle state.collector.outOfStackSpaceForGC ?_
            (fun _ => .inl) coversAdvance
            ⟨members, .inr ⟨idle, blocks, laid, isBlock⟩⟩
          intro kept owner isVisited notAhead isObject
          refine ⟨kept, fun ahead => ?_⟩
          obtain ⟨rfl, allocated⟩ := onlyBlock notAhead ahead
          have reached := holds.scanned.visitedReached owner isVisited
          have alive := (marked.alive owner reached).mpr (.inr isVisited)
          have stays := (marked.object_iff member laid).mp
            ⟨allocated, isObject.1⟩
          exact scans ⟨alive, stays.2.2⟩
      · simp only [inside, if_false] at steps
        cases steps
        have restMembers : ∀ other ∈ rest, other ∈ input.clusters :=
          fun other isRest => members other (List.mem_cons_of_mem _ isRest)
        refine holds.move graph idle state.collector.outOfStackSpaceForGC ?_
          (fun _ => .inl) ?_ (atPlace_startWalk rfl marked idle restMembers)
        · rintro kept owner _ notAhead isObject
          refine ⟨kept, fun ahead => ?_⟩
          rw [isPhase] at ahead
          simp only [Excused, Ahead] at ahead
          rcases ahead with ⟨allocated, behind⟩ | ⟨other, isRest, allocated⟩
          · have isBlock := ((marked.object_iff member laid).mp
              ⟨allocated, isObject.1⟩).1
            have := laid.place isBlock
            omega
          · exact notAhead (ahead_startWalk marked restMembers isRest allocated
              isObject.1 final)
        · cases rest with
          | nil =>
              refine ⟨covers.multiple, covers.single, ?_⟩
              cases final <;> exact covers.finalizers
          | cons next rest =>
              refine ⟨covers.multiple, covers.single, ?_⟩
              cases final <;> exact covers.finalizers

/-- A rescan goes on behind a block. -/
theorem MarkInvariant.control_advance
    (graph : GraphWellFormed input)
    (holds : MarkInvariant input visited handed state)
    (idle : state.scan = none)
    {final : Bool}
    {clusters : List Nat}
    {block : Nat}
    (isPhase : state.phase = .advance final clusters block)
    (steps : control input state = some later) :
    MarkInvariant input visited handed later := by
  have covers := holds.covers
  have marked := holds.marked idle
  have place := holds.place
  rw [AtPlace, isPhase] at place
  rw [isPhase] at covers
  unfold control at steps
  simp only [isPhase] at steps
  cases steps
  cases clusters with
  | nil => exact place.elim
  | cons cluster rest =>
      obtain ⟨members, atBlock⟩ := place
      have member := members cluster List.mem_cons_self
      obtain ⟨blocks, laid, isBlock⟩ : ∃ blocks,
          Laid state.collector.memory cluster blocks ∧ block ∈ blocks := by
        rcases atBlock with isObject | ⟨_, laidBlock⟩
        · obtain ⟨blocks, laid⟩ := marked.laid.clusters cluster member
          exact ⟨blocks, laid, ((marked.object_iff member laid).mp isObject).1⟩
        · exact laidBlock
      refine holds.move graph idle state.collector.outOfStackSpaceForGC ?_
        (fun _ => .inl) ?_
        ⟨idle, members, blocks, laid, laid.tiling.next_mem_or isBlock⟩
      · intro kept owner _ notAhead isObject
        refine ⟨kept, fun ahead => ?_⟩
        rw [isPhase] at ahead
        apply notAhead
        simp only [Excused, Ahead] at ahead ⊢
        rcases ahead with ⟨allocated, behind⟩ | inRest
        · have isOwner := ((marked.object_iff member laid).mp
            ⟨allocated, isObject.1⟩).1
          have := laid.tiling.disjoint isBlock isOwner (by omega)
          have := laid.place isOwner
          exact .inl ⟨allocated, by omega⟩
        · exact .inr inRest
      · refine ⟨covers.multiple, covers.single, ?_⟩
        cases final <;> exact covers.finalizers

/-- Every step outside the marking loop keeps the invariant. -/
theorem MarkInvariant.control
    (graph : GraphWellFormed input)
    (holds : MarkInvariant input visited handed state)
    (idle : state.scan = none)
    (steps : control input state = some later) :
    (∃ handed', MarkInvariant input visited handed' later) ∧
      later.collector.memory = state.collector.memory := by
  constructor
  · cases isPhase : state.phase with
    | roots remaining => exact holds.control_roots graph idle isPhase steps
    | test final => exact ⟨_, holds.control_test graph idle isPhase steps⟩
    | walk final clusters block =>
        exact ⟨_, holds.control_walk graph idle isPhase steps⟩
    | advance final clusters block =>
        exact ⟨_, holds.control_advance graph idle isPhase steps⟩
    | finalizers remaining =>
        exact holds.control_finalizers graph idle isPhase steps
    | finished =>
        unfold GarbageCollector.control at steps
        simp only [isPhase] at steps
        cases steps
  · unfold GarbageCollector.control GarbageCollector.checkSingleBlock
      checkMultipleBlocks enterScan at steps
    simp only at steps
    split at steps <;> (try split at steps) <;> (try split at steps) <;>
      cases steps <;> (try split) <;> rfl

end Control

end GarbageCollector

end NanoClr
