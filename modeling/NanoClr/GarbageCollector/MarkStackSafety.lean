import NanoClr.GarbageCollector.MarkingWorklist
import NanoClr.Library.TransitionSystem

/-!
# Safety of the mark stack

A marking is a sequence of scans, each run round by round; between two scans
the callers may write memory and clear the flag that a range was dropped.  The
pushes of a marking stay inside the list that is current exactly when all of
them find room.  They do not always: the list that extends a full one is never
made current when it exists already, and a new list with a single element has
its only element taken by the sentinel.
-/

namespace NanoClr

open HeapBlock

namespace GarbageCollector

/-! ## Markings -/

/-- The collector, and the locals while a scan is under way. -/
structure Marking where
  collector : Collector
  scan : Option Scan

/-- A scan of a range is entered, or a round of it is run with the outcome of
the allocations that it tries. -/
inductive MarkEvent where
  | enter (memory : Memory) (outOfSpace : Bool) (lst num : Nat)
  | round (allocate : Nat → Option Memory)

/-- `Mark` starts with a single list of the minimum size. -/
def MarkStart (marking : Marking) : Prop :=
  marking.scan = none ∧
    marking.collector.listCount = 1 ∧
    marking.collector.markStack = 0 ∧
    ∃ stack, marking.collector.lists 0 =
      markStackInitialize stack 0 c_minimumSpaceForGC

/-- The steps of marking: a scan begins, goes on by a round, or ends. -/
inductive MarkStep : Marking → MarkEvent → Marking → Prop
  | enter (collector : Collector) (memory : Memory) (outOfSpace : Bool)
      (lst num : Nat) :
      MarkStep ⟨collector, none⟩ (.enter memory outOfSpace lst num)
        ⟨{ collector with memory, outOfStackSpaceForGC := outOfSpace },
          some (loadState collector lst num)⟩
  | next {collector collector' : Collector} {scan scan' : Scan}
      {allocate : Nat → Option Memory}
      (rounds : round allocate collector scan = .next (collector', scan')) :
      MarkStep ⟨collector, some scan⟩ (.round allocate)
        ⟨collector', some scan'⟩
  | done {collector collector' : Collector} {scan : Scan}
      {allocate : Nat → Option Memory}
      (rounds : round allocate collector scan = .done collector') :
      MarkStep ⟨collector, some scan⟩ (.round allocate) ⟨collector', none⟩

/-! ## Pushes -/

/-- Where a round pushes an element, with the collector at that moment. -/
def pushed
    (allocate : Nat → Option Memory)
    (collector : Collector)
    (scan : Scan) : Option (Collector × ElementPointer) :=
  if 1 < scan.num then
    (makeRoom allocate collector scan).map fun (collector, scan) =>
      (collector, above scan.stack)
  else none

/-- A push is inside the current list: above its base, not beyond its last
element, and inside its buffer. -/
def InsideCurrentList
    (collector : Collector)
    (pointer : ElementPointer) : Prop :=
  let current := collector.lists collector.markStack
  pointer.list = collector.markStack ∧
    0 < pointer.index ∧
    current.last.list = pointer.list ∧
    pointer.index ≤ current.last.index ∧
    pointer.index < current.size

/-- Whatever an event of a marking pushes is inside the current list. -/
def PushInside (marking : Marking) (event : MarkEvent) : Prop :=
  match marking.scan, event with
  | some scan, .round allocate =>
      ∀ collector pointer,
        pushed allocate marking.collector scan = some (collector, pointer) →
          InsideCurrentList collector pointer
  | _, _ => True

/-- Every push of an event finds room. -/
def FindsRoom (marking : Marking) (event : MarkEvent) : Prop :=
  match marking.scan, event with
  | some scan, .round allocate => HasRoom allocate marking.collector scan
  | _, _ => True

/-- The mark stack lists are well formed between scans and during a scan. -/
def MarkingWellFormed (marking : Marking) : Prop :=
  match marking.scan with
  | none => Idle marking.collector
  | some scan => Scanning marking.collector scan

/-! ## Runs -/

theorem MarkStart.wellFormed
    {marking : Marking}
    (starts : MarkStart marking) :
    MarkingWellFormed marking := by
  obtain ⟨collector, scan⟩ := marking
  obtain ⟨noScan, count, current, stack, first⟩ := starts
  simp only at noScan count current first
  subst noScan
  have onlyFirst : ∀ list < collector.listCount, list = 0 := by
    intro list bound
    omega
  have noneBelow : ∀ list, ¬ list < collector.markStack := by
    intro list bound
    omega
  have inUse : collector.markStack < collector.listCount := by omega
  refine ⟨⟨inUse, ?_, ?_, ?_, ?_, ?_⟩, current, ?_⟩
  · intro list bound
    rw [onlyFirst list bound, first]
    exact (by decide : 2 ≤ c_minimumSpaceForGC)
  · intro list bound
    rw [onlyFirst list bound, first]
    rfl
  · intro list bound
    rw [onlyFirst list bound, first]
    rfl
  · intro list bound
    exact absurd bound (noneBelow list)
  · intro list bound
    exact absurd bound (noneBelow list)
  · change (collector.lists 0).top = ⟨0, 0⟩
    rw [first]
    rfl

/-- A step whose push finds room keeps the lists well formed. -/
theorem MarkStep.wellFormed
    {marking later : Marking}
    {event : MarkEvent}
    (holds : MarkingWellFormed marking)
    (room : FindsRoom marking event)
    (steps : MarkStep marking event later) :
    MarkingWellFormed later := by
  cases steps with
  | enter collector memory outOfSpace lst num =>
      have idle : Idle collector := holds
      exact (idle.scanning lst num).congr rfl rfl rfl rfl rfl rfl
  | @next collector collector' scan scan' allocate rounds =>
      have scanning : Scanning collector scan := holds
      obtain ⟨_, isDone, _⟩ | ⟨_, _, isNext, wellFormed, _⟩ :=
        scanning.refines room
      · rw [isDone] at rounds
        cases rounds
      · rw [isNext] at rounds
        cases rounds
        exact wellFormed
  | @done collector collector' scan allocate rounds =>
      have scanning : Scanning collector scan := holds
      obtain ⟨_, isDone, idle, _⟩ | ⟨_, _, isNext, _⟩ :=
        scanning.refines room
      · rw [isDone] at rounds
        cases rounds
        exact idle
      · rw [isNext] at rounds
        cases rounds

/-- Where the lists are well formed, a push is inside the current list exactly
when it finds room. -/
theorem pushInside_iff_findsRoom
    {marking : Marking}
    {event : MarkEvent}
    (holds : MarkingWellFormed marking) :
    PushInside marking event ↔ FindsRoom marking event := by
  obtain ⟨collector, scan⟩ := marking
  cases scan with
  | none => exact Iff.rfl
  | some scan =>
      cases event with
      | enter => exact Iff.rfl
      | round allocate =>
          have scanning : Scanning collector scan := holds
          constructor
          · intro inside several isFull
            have inside : ∀ collector' pointer,
                (makeRoom allocate collector scan).map
                  (fun (collector, scan) => (collector, above scan.stack)) =
                    some (collector', pointer) →
                InsideCurrentList collector' pointer := by
              intro collector' pointer isPushed
              apply inside
              rw [pushed, if_pos several]
              exact isPushed
            have isLast : ¬ scan.stackList + 1 < collector.listCount := by
              intro exists_
              have makes : makeRoom allocate collector scan =
                  some (saveState collector scan,
                    loadState (saveState collector scan) scan.lst scan.num) := by
                rw [makeRoom, if_pos isFull, if_pos exists_]
              rw [makes] at inside
              obtain ⟨_, _, _, notBeyond, _⟩ := inside _ _ rfl
              have current : (saveState collector scan).markStack =
                  collector.markStack := scanning.stackList
              simp only [loadState, above, current] at notBeyond
              simp only [saveState, Function.update_self, isFull] at notBeyond
              omega
            refine ⟨isLast, ?_⟩
            intro outOfSpace memory isGranted
            have makes : makeRoom allocate collector scan =
                some (extend collector scan 1 memory) := by
              rw [makeRoom, if_pos isFull, if_neg isLast, outOfSpace,
                if_neg Bool.false_ne_true, isGranted]
              rfl
            rw [makes] at inside
            obtain ⟨_, _, _, notBeyond, _⟩ := inside _ _ rfl
            simp [loadState, above, markStackInitialize] at notBeyond
          · intro room collector' pointer isPushed
            rw [pushed] at isPushed
            split at isPushed
            · rename_i several
              obtain fails | ⟨roomy, scanRoomy, makes, wellFormed, space, _⟩ :=
                scanning.makingRoom several room
              · rw [fails] at isPushed
                cases isPushed
              · rw [makes] at isPushed
                cases isPushed
                have last := wellFormed.last _ wellFormed.current
                have size := wellFormed.size _ wellFormed.current
                refine ⟨wellFormed.inCurrent, Nat.succ_pos _, ?_, ?_, space⟩
                · rw [last]
                  exact wellFormed.inCurrent.symm
                · rw [last]
                  simp only [above]
                  omega
            · cases isPushed

/-- The pushes of a marking stay inside the current lists exactly when all of
them find room. -/
theorem markStack_pushes_inside
    {taken : List (Marking × MarkEvent)}
    {marking : Marking}
    (run : Run MarkStart MarkStep taken marking) :
    (∀ entry ∈ taken, PushInside entry.1 entry.2) ↔
      ∀ entry ∈ taken, FindsRoom entry.1 entry.2 :=
  run.forall_iff MarkingWellFormed PushInside FindsRoom
    (fun _ => MarkStart.wellFormed) (fun _ _ _ => MarkStep.wellFormed)
    (fun _ _ => pushInside_iff_findsRoom)

/-! ## A list that is too deep -/

/-- The only allocation that succeeds is that of a single element. -/
def allocateSingle (memory : Memory) (cElement : Nat) : Option Memory :=
  if cElement = 1 then some memory else none

namespace DeepList

/-- The address of the first node of the list. -/
def start : Nat := 0x1000

/-- The length of the list. -/
def length : Nat := 200

/-- The address of a node of the list. -/
def node (index : Nat) : Nat := start + 9 * index

/-- The words of a node: an object with a reference to the next node and a
number. -/
def word (index : Nat) : Nat → Nat
  | 0 => rawId DataType.classType.code 0 3
  | 3 => rawId DataType.object.code 0 1
  | 4 => if index + 1 < length then node (index + 1) else 0
  | 6 => rawId DataType.i4.code 0 1
  | _ => 0

/-- A linked list of objects. -/
def memory (address : Nat) : Nat :=
  if address < start ∨ length ≤ (address - start) / 9 then 0
  else word ((address - start) / 9) ((address - start) % 9)

theorem memory_node
    {index : Nat}
    (inList : index < length)
    (offset : Nat)
    (inNode : offset < 9) :
    memory (node index + offset) = word index offset := by
  have relative : node index + offset - start = 9 * index + offset := by
    simp only [node]
    omega
  have quotient : (9 * index + offset) / 9 = index := by omega
  have remainder : (9 * index + offset) % 9 = offset := by omega
  have notBelow : ¬ (node index + offset < start ∨ length ≤ index) := by
    simp only [node]
    omega
  rw [memory, relative, quotient, remainder, if_neg notBelow]

/-- The scan is about to visit a node of the list, and the stack holds a rest
for each node before it. -/
structure Filling (count : Nat) (collector : Collector) (scan : Scan) :
    Prop where
  listCount : collector.listCount = 1
  markStack : collector.markStack = 0
  space : collector.outOfStackSpaceForGC = false
  stackList : scan.stackList = 0
  stack : scan.stack = ⟨0, count⟩
  stackLast : scan.stackLast = ⟨0, 127⟩
  lst : scan.lst = node count
  num : scan.num = 1
  rest : ∀ address, node count ≤ address →
    collector.memory address = memory address

/-- The scan has visited a node and is about to push the rest of its fields. -/
structure Pushing (count : Nat) (collector : Collector) (scan : Scan) :
    Prop where
  listCount : collector.listCount = 1
  markStack : collector.markStack = 0
  space : collector.outOfStackSpaceForGC = false
  stackList : scan.stackList = 0
  stack : scan.stack = ⟨0, count⟩
  stackLast : scan.stackLast = ⟨0, 127⟩
  lst : scan.lst = node count + 3
  num : scan.num = 2
  rest : ∀ address, node count < address →
    collector.memory address = memory address

/-- Visiting a node. -/
theorem Filling.round
    {count : Nat}
    {collector : Collector}
    {scan : Scan}
    (filling : Filling count collector scan)
    (inList : count < length)
    (allocate : Nat → Option Memory) :
    ∃ collector' scan',
      GarbageCollector.round allocate collector scan =
        .next (collector', scan') ∧
      Pushing count collector' scan' := by
  have identity : collector.memory (node count) =
      rawId DataType.classType.code 0 3 :=
    (filling.rest _ (Nat.le_refl _)).trans
      (memory_node inList 0 (by decide))
  have visits := visit_classType collector.memory
    collector.weakDelegatesReachable (node count)
    (by rw [dataType, dataTypeCode, identity]; decide)
  have size : dataSize collector.memory (node count) - 1 = 2 := by
    rw [dataSize, identity]
    decide
  rw [size] at visits
  refine ⟨(visitBlock collector scan scan.lst).1,
    (visitBlock collector scan scan.lst).2, ?_, ?_⟩
  · rw [GarbageCollector.round, filling.num, if_neg Nat.one_ne_zero,
      if_neg (Nat.lt_irrefl 1)]
  · rw [visitBlock, filling.lst, visits]
    refine ⟨filling.listCount, filling.markStack, filling.space,
      filling.stackList, filling.stack, filling.stackLast, rfl, rfl, ?_⟩
    intro address beyond
    exact (markAlive_other _ _ _ (Nat.ne_of_gt beyond)).trans
      (filling.rest address (Nat.le_of_lt beyond))

/-- Pushing the rest of the fields and following the first one. -/
theorem Pushing.round
    {count : Nat}
    {collector : Collector}
    {scan : Scan}
    (pushing : Pushing count collector scan)
    (room : count < 127)
    (allocate : Nat → Option Memory) :
    ∃ collector' scan',
      GarbageCollector.round allocate collector scan =
        .next (collector', scan') ∧
      Filling (count + 1) collector' scan' := by
  have inList : count < length := Nat.lt_trans room (by decide)
  have nextInList : count + 1 < length :=
    Nat.lt_trans (Nat.succ_lt_succ room) (by decide)
  have nextNode : node (count + 1) = node count + 9 := by
    simp only [node]
    omega
  have identity : collector.memory (node count + 3) =
      rawId DataType.object.code 0 1 :=
    (pushing.rest _ (by omega)).trans
      (memory_node inList 3 (by decide))
  have reference : collector.memory (node count + 3 + 1) = node (count + 1) := by
    refine (pushing.rest (node count + 4) (by omega)).trans
      ((memory_node inList 4 (by decide)).trans ?_)
    exact if_pos nextInList
  have nextIdentity : collector.memory (node (count + 1)) =
      rawId DataType.classType.code 0 3 :=
    (pushing.rest _ (by omega)).trans
      (memory_node nextInList 0 (by decide))
  have visits := visit_object collector.memory
    collector.weakDelegatesReachable (node count + 3)
    (by rw [dataType, dataTypeCode, identity]; decide)
    (by rw [reference, nextNode]; omega)
    (by rw [reference, nextNode]; omega)
    (by rw [reference, isAlive, isFlagSet, dataFlags, nextIdentity]; decide)
  rw [reference] at visits
  have notFull : scan.stack ≠ scan.stackLast := by
    rw [pushing.stack, pushing.stackLast]
    intro same
    injection same
    omega
  have several : 1 < scan.num := by
    rw [pushing.num]
    decide
  let pushed := pushRest collector scan
  refine ⟨(visitBlock pushed.1 pushed.2 pushed.2.lst).1,
    (visitBlock pushed.1 pushed.2 pushed.2.lst).2, ?_, ?_⟩
  · rw [GarbageCollector.round, pushing.num, if_neg (by decide),
      if_pos (by decide), makeRoom, if_neg notFull]
  · simp only [pushed, pushRest, visitBlock, setElement, pushing.lst, visits]
    refine ⟨pushing.listCount, pushing.markStack, pushing.space,
      pushing.stackList, ?_, pushing.stackLast, rfl, rfl, ?_⟩
    · simp only [above, pushing.stack]
    · intro address beyond
      exact (markAlive_other _ _ _ (by omega)).trans
        (pushing.rest address (by omega))

/-- The collector before the list is marked. -/
def collector : Collector :=
  { memory
    lists := fun _ => markStackInitialize
      { elements := fun _ => ⟨0, 0⟩, size := 0, last := ⟨0, 0⟩, top := ⟨0, 0⟩ }
      0 c_minimumSpaceForGC
    listCount := 1
    markStack := 0
    outOfStackSpaceForGC := false
    weakDelegatesReachable := 0x10 }

/-- The events that mark the list from its first node, with allocations of a
single element only. -/
def IsEvent (event : MarkEvent) : Prop :=
  event = .enter memory false start 1 ∨
    ∃ memory, event = .round (allocateSingle memory)

/-- Marking the list fills the stack node by node. -/
theorem run_filling (count : Nat) (bound : count ≤ 127) :
    ∃ taken collector scan,
      Run MarkStart MarkStep taken ⟨collector, some scan⟩ ∧
      Filling count collector scan ∧
      ∀ entry ∈ taken, IsEvent entry.2 := by
  induction count with
  | zero =>
      have begins : MarkStart ⟨collector, none⟩ := ⟨rfl, rfl, rfl, _, rfl⟩
      refine ⟨_, _, _, (Run.start begins).next (.enter _ memory false start 1),
        ⟨rfl, rfl, rfl, rfl, rfl, rfl, rfl, rfl, fun _ _ => rfl⟩, ?_⟩
      intro entry member
      rw [List.nil_append, List.mem_singleton] at member
      exact .inl (by rw [member])
  | succ count inductionHypothesis =>
      have below : count < 127 := bound
      obtain ⟨taken, collector, scan, run, filling, events⟩ :=
        inductionHypothesis (Nat.le_of_lt below)
      let event := MarkEvent.round (allocateSingle memory)
      have isEvent : IsEvent event := .inr ⟨memory, rfl⟩
      obtain ⟨collector', scan', visits, pushing⟩ :=
        filling.round (Nat.lt_trans below (by decide)) (allocateSingle memory)
      obtain ⟨collector'', scan'', pushes, filling'⟩ :=
        pushing.round below (allocateSingle memory)
      refine ⟨_, _, _, (run.next (.next visits)).next (.next pushes), filling',
        ?_⟩
      intro entry member
      rcases List.mem_append.mp member with earlier | last
      · rcases List.mem_append.mp earlier with earlier | last
        · exact events entry earlier
        · rw [List.mem_singleton.mp last]
          exact isEvent
      · rw [List.mem_singleton.mp last]
        exact isEvent

end DeepList

/-- The marking of a linked list up to the moment where the first list is
full. -/
theorem markStack_pushes_inside_deepList :
    ∃ taken collector scan,
      Run MarkStart MarkStep taken ⟨collector, some scan⟩ ∧
      DeepList.Filling 127 collector scan ∧
      ((∀ entry ∈ taken, PushInside entry.1 entry.2) ↔
        ∀ entry ∈ taken, FindsRoom entry.1 entry.2) := by
  obtain ⟨taken, collector, scan, run, filling, _⟩ :=
    DeepList.run_filling 127 (Nat.le_refl 127)
  exact ⟨taken, collector, scan, run, filling, markStack_pushes_inside run⟩

/-- Marking a linked list of 200 objects, where a new mark stack list can only
be allocated with one element, pushes beyond the last element of that list. -/
theorem markStack_pushes_outside :
    ∃ taken marking,
      Run MarkStart MarkStep taken marking ∧
      (∀ entry ∈ taken, DeepList.IsEvent entry.2) ∧
      ¬ ∀ entry ∈ taken, PushInside entry.1 entry.2 := by
  obtain ⟨taken, collector, scan, run, filling, events⟩ :=
    DeepList.run_filling 127 (Nat.le_refl 127)
  let allocate := allocateSingle DeepList.memory
  obtain ⟨collector', scan', visits, pushing⟩ :=
    filling.round (by decide) allocate
  let event := MarkEvent.round allocate
  have isEvent : DeepList.IsEvent event := .inr ⟨DeepList.memory, rfl⟩
  obtain ⟨marking, steps⟩ : ∃ marking,
      MarkStep ⟨collector', some scan'⟩ event marking := by
    cases decides : round allocate collector' scan' with
    | next later => exact ⟨_, .next decides⟩
    | done result => exact ⟨_, .done decides⟩
  refine ⟨_, marking, (run.next (.next visits)).next steps, ?_, ?_⟩
  · intro entry member
    rcases List.mem_append.mp member with earlier | last
    · rcases List.mem_append.mp earlier with earlier | last
      · exact events entry earlier
      · rw [List.mem_singleton.mp last]
        exact isEvent
    · rw [List.mem_singleton.mp last]
      exact isEvent
  · intro inside
    have last : PushInside ⟨collector', some scan'⟩ event :=
      inside (⟨collector', some scan'⟩, event)
        (List.mem_append_right _ (List.mem_singleton.mpr rfl))
    have several : 1 < scan'.num := by
      rw [pushing.num]
      decide
    have isFull : scan'.stack = scan'.stackLast :=
      pushing.stack.trans pushing.stackLast.symm
    have isLast : ¬ scan'.stackList + 1 < collector'.listCount := by
      rw [pushing.stackList, pushing.listCount]
      decide
    have makes : makeRoom allocate collector' scan' =
        some (extend collector' scan' 1 DeepList.memory) := by
      rw [makeRoom, if_pos isFull, if_neg isLast, pushing.space,
        if_neg Bool.false_ne_true]
      rfl
    obtain ⟨_, _, _, notBeyond, _⟩ := last _ _ (by
      rw [pushed, if_pos several, makes]
      rfl)
    simp [loadState, above, markStackInitialize] at notBeyond

end GarbageCollector

end NanoClr
