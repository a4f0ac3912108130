import NanoClr.GarbageCollector.MarkedMemory

/-!
# The invariant of a scan

Of what was visited, every target is alive or comes next, and while no range
was dropped every field was visited or waits on the worklist.
-/

namespace NanoClr

open HeapBlock HeapCluster

namespace GarbageCollector

/-- A block lies in a range. -/
def InRange (lst num block : Nat) : Prop :=
  ∃ index < num, block = lst + 3 * index

/-- A block lies in a range on the stack. -/
def OnStack (stack : List MarkStackElement) (block : Nat) : Prop :=
  ∃ range ∈ stack, InRange range.ptr range.num block

/-- A block waits to be visited. -/
def Waits (work : Worklist) (block : Nat) : Prop :=
  InRange work.lst work.num block ∨ OnStack work.stack block

theorem inRange_one {lst block : Nat} : InRange lst 1 block ↔ block = lst := by
  constructor
  · rintro ⟨index, bound, rfl⟩
    omega
  · rintro rfl
    exact ⟨0, by decide, rfl⟩

/-- A range is its first block and the rest. -/
theorem inRange_split {lst num block : Nat} (nonempty : num ≠ 0) :
    InRange lst num block ↔
      block = lst ∨ InRange (lst + 3) (num - 1) block := by
  constructor
  · rintro ⟨index, bound, rfl⟩
    cases index with
    | zero => exact .inl rfl
    | succ index => exact .inr ⟨index, by omega, by omega⟩
  · rintro (rfl | ⟨index, bound, rfl⟩)
    · exact ⟨0, by omega, rfl⟩
    · exact ⟨index + 1, by omega, by omega⟩

theorem onStack_nil {block : Nat} : ¬ OnStack [] block := by
  rintro ⟨range, member, _⟩
  cases member

theorem onStack_cons
    {range : MarkStackElement}
    {rest : List MarkStackElement}
    {block : Nat} :
    OnStack (range :: rest) block ↔
      InRange range.ptr range.num block ∨ OnStack rest block := by
  constructor
  · rintro ⟨found, member, inRange⟩
    rcases List.mem_cons.mp member with rfl | later
    · exact .inl inRange
    · exact .inr ⟨found, later, inRange⟩
  · rintro (inRange | ⟨found, member, inRange⟩)
    · exact ⟨range, List.mem_cons_self, inRange⟩
    · exact ⟨found, List.mem_cons_of_mem _ member, inRange⟩

theorem onStack_rangeOf
    {ptr num block : Nat}
    {rest : List MarkStackElement} :
    OnStack (rangeOf ptr num ++ rest) block ↔
      InRange ptr num block ∨ OnStack rest block := by
  by_cases empty : num = 0
  · subst empty
    rw [rangeOf_zero, List.nil_append]
    constructor
    · exact .inr
    · rintro (⟨index, bound, _⟩ | onStack)
      · omega
      · exact onStack
  · rw [rangeOf_pos empty, List.singleton_append]
    exact onStack_cons

/-- A block that has a target owns no range. -/
theorem fieldRange_of_target
    {memory : Memory}
    {block : Nat}
    (nonzero : target memory block ≠ 0) :
    fieldRange memory block = (0, 0) := by
  unfold target at nonzero
  unfold fieldRange
  split at nonzero
  · rename_i isObject
    simp [isObject]
  · rename_i isByRef
    simp [isByRef]
  · rename_i isArrayByRef
    simp [isArrayByRef]
  · exact absurd rfl nonzero

/-- The invariant of a scan, with the blocks that were visited, the blocks
whose fields are excused, and the blocks that were handed over as roots. -/
structure Scanned
    (input : MarkInput)
    (visited excused handed : Nat → Prop)
    (work : Worklist) : Prop where
  marked : Marked input visited work.memory
  visitedReached : ∀ block, visited block → Reached input block
  waitsReached : ∀ block, Waits work block → Reached input block
  targets : ∀ block, visited block → target input.memory block ≠ 0 →
    isAlive work.memory (target input.memory block) = true ∨
      work.num = 1 ∧ work.lst = target input.memory block
  fields : work.dropped = false → ∀ owner, visited owner → ¬ excused owner →
    (work.num = 1 ∧ work.lst = owner) ∨
      ∀ block, IsField input.memory owner block →
        visited block ∨ Waits work block
  roots : ∀ block, handed block →
    visited block ∨ OnStack work.stack block ∨
      work.stack = [] ∧ InRange work.lst work.num block

namespace Scanned

variable
  {input : MarkInput}
  {visited excused handed : Nat → Prop}
  {work work' : Worklist}

/-- What was visited stays alive. -/
theorem alive_mono
    {visited' : Nat → Prop}
    {memory memory' : Memory}
    (marked : Marked input visited memory)
    (marked' : Marked input visited' memory')
    (more : ∀ block, visited block → visited' block)
    {block : Nat}
    (reached : Reached input block)
    (alive : isAlive memory block = true) :
    isAlive memory' block = true := by
  rw [marked'.alive block reached]
  rcases (marked.alive block reached).mp alive with before | isVisited
  · exact .inl before
  · exact .inr (more block isVisited)

/-- Visiting the next block keeps the invariant. -/
theorem visit
    (graph : GraphWellFormed input)
    (scanned : Scanned input visited excused handed work)
    {memory : Memory}
    (source : memory = work.memory ∨
      Allocates ⟨work.memory, input.clusters⟩ memory)
    {block : Nat}
    {stack : List MarkStackElement}
    (isNext : Waits work block)
    (single : work.num = 1 → work.lst = block)
    (splits : ∀ other, Waits work other → other = block ∨ OnStack stack other)
    (stays : ∀ other, OnStack stack other → Waits work other) :
    Scanned input (fun other => visited other ∨ other = block) excused handed
      (work.visitBlock memory input.weakDelegatesReachable block stack) := by
  have reached := scanned.waitsReached block isNext
  have marked : Marked input visited memory := by
    rcases source with rfl | allocates
    · exact scanned.marked
    · exact scanned.marked.allocate graph allocates
  obtain ⟨marked', _⟩ := marked.visit_memory graph reached
  have range := marked.visit_range graph reached
  have more : ∀ other, visited other → visited other ∨ other = block :=
    fun _ => .inl
  have reachedField {other : Nat}
      (isField : IsField input.memory block other) : Reached input other :=
    .field reached isField
  have rangeCases : (NanoClr.target input.memory block ≠ 0 ∧
      (NanoClr.visit memory input.weakDelegatesReachable block).2 =
        (NanoClr.target input.memory block, 1)) ∨
      (NanoClr.target input.memory block ≠ 0 →
        isAlive (NanoClr.visit memory input.weakDelegatesReachable block).1
          (NanoClr.target input.memory block) = true) ∧
      (NanoClr.visit memory input.weakDelegatesReachable block).2 =
        fieldRange input.memory block := by
    by_cases follows : NanoClr.target input.memory block ≠ 0 ∧
        isAlive (NanoClr.visit memory input.weakDelegatesReachable block).1
          (NanoClr.target input.memory block) = false
    · rw [if_pos follows] at range
      exact .inl ⟨follows.1, range⟩
    · rw [if_neg follows] at range
      refine .inr ⟨fun nonzero => ?_, range⟩
      rw [not_and, Bool.not_eq_false] at follows
      exact follows nonzero
  generalize visitIs : NanoClr.visit memory input.weakDelegatesReachable block =
    result at marked' rangeCases
  obtain ⟨memory', lst, num⟩ := result
  have newWork : work.visitBlock memory input.weakDelegatesReachable block stack
      = { memory := memory', dropped := work.dropped, lst, num, stack } := by
    rw [Worklist.visitBlock, visitIs]
  rw [newWork]
  simp only at marked' rangeCases
  refine {
    marked := marked'
    visitedReached := ?_
    waitsReached := ?_
    targets := ?_
    fields := ?_
    roots := ?_ }
  · rintro other (isVisited | rfl)
    · exact scanned.visitedReached other isVisited
    · exact reached
  · rintro other (inRange | onStack)
    · rcases rangeCases with ⟨nonzero, isTarget⟩ | ⟨_, isRange⟩
      · cases isTarget
        rw [inRange_one.mp inRange]
        exact .target reached nonzero
      · obtain ⟨index, bound, rfl⟩ := inRange
        apply reachedField
        exact ⟨index, by rw [← isRange]; exact bound, by rw [← isRange]⟩
    · exact scanned.waitsReached other (stays other onStack)
  · rintro owner (isVisited | rfl) nonzero
    · have reachedTarget : Reached input (NanoClr.target input.memory owner) :=
        .target (scanned.visitedReached owner isVisited) nonzero
      left
      rcases scanned.targets owner isVisited nonzero with alive | ⟨one, isLst⟩
      · exact alive_mono scanned.marked marked' more reachedTarget alive
      · apply (marked'.alive _ reachedTarget).mpr
        exact .inr (.inr (isLst.symm.trans (single one)))
    · rcases rangeCases with ⟨_, isTarget⟩ | ⟨alive, _⟩
      · cases isTarget
        exact .inr ⟨rfl, rfl⟩
      · exact .inl (alive nonzero)
  · intro kept owner isVisited notExcused
    have own : owner = block → (num = 1 ∧ lst = owner) ∨
        ∀ other, IsField input.memory owner other →
          (visited other ∨ other = block) ∨
            InRange lst num other ∨ OnStack stack other := by
      rintro rfl
      right
      intro other isField
      rcases rangeCases with ⟨nonzero, _⟩ | ⟨_, isRange⟩
      · obtain ⟨index, bound, _⟩ := isField
        rw [fieldRange_of_target nonzero] at bound
        exact absurd bound (Nat.not_lt_zero index)
      · obtain ⟨index, bound, same⟩ := isField
        rw [← isRange] at bound same
        exact .inr (.inl ⟨index, bound, same⟩)
    rcases isVisited with isVisited | isBlock
    · rcases scanned.fields kept owner isVisited notExcused with
        ⟨one, isLst⟩ | closed
      · exact own (isLst.symm.trans (single one))
      · right
        intro other isField
        rcases closed other isField with wasVisited | waits
        · exact .inl (.inl wasVisited)
        · rcases splits other waits with rfl | onStack
          · exact .inl (.inr rfl)
          · exact .inr (.inr onStack)
    · exact own isBlock
  · intro other isHanded
    have waiting : Waits work other →
        (visited other ∨ other = block) ∨ OnStack stack other ∨
          stack = [] ∧ InRange lst num other := by
      intro waits
      rcases splits other waits with isBlock | onStack
      · exact .inl (.inr isBlock)
      · exact .inr (.inl onStack)
    rcases scanned.roots other isHanded with wasVisited | onStack | ⟨_, inRange⟩
    · exact .inl (.inl wasVisited)
    · exact waiting (.inr onStack)
    · exact waiting (.inl inRange)

/-- A visit of the worklist. -/
theorem stepVisit
    (graph : GraphWellFormed input)
    (scanned : Scanned input visited excused handed work)
    {block : Nat}
    (steps : Worklist.Step
      (fun memory => Allocates ⟨work.memory, input.clusters⟩ memory)
      input.weakDelegatesReachable work (some block) work') :
    Reached input block ∧
    (∃ memory,
      (memory = work.memory ∨
        Allocates ⟨work.memory, input.clusters⟩ memory) ∧
      work'.memory =
        (NanoClr.visit memory input.weakDelegatesReachable block).1) ∧
    Scanned input (fun other => visited other ∨ other = block) excused handed
      work' := by
  cases steps with
  | next memory nonempty source =>
      have isNext : Waits work work.lst :=
        .inl ((inRange_split nonempty).mpr (.inl rfl))
      refine ⟨scanned.waitsReached _ isNext, ⟨memory, source, rfl⟩, ?_⟩
      apply scanned.visit graph source isNext (fun _ => rfl)
      · rintro other (inRange | onStack)
        · rcases (inRange_split nonempty).mp inRange with isFirst | inRest
          · exact .inl isFirst
          · exact .inr (onStack_rangeOf.mpr (.inl inRest))
        · exact .inr (onStack_rangeOf.mpr (.inr onStack))
      · intro other onStack
        rcases onStack_rangeOf.mp onStack with inRest | onStack
        · exact .inl ((inRange_split nonempty).mpr (.inr inRest))
        · exact .inr onStack
  | pop block num rest noRange top nonempty =>
      have onTop (other : Nat) : OnStack work.stack other ↔
          InRange block num other ∨ OnStack rest other := by
        rw [top]
        exact onStack_cons
      have isNext : Waits work block :=
        .inr ((onTop block).mpr (.inl ((inRange_split nonempty).mpr (.inl rfl))))
      refine ⟨scanned.waitsReached _ isNext, ⟨work.memory, .inl rfl, rfl⟩, ?_⟩
      apply scanned.visit graph (.inl rfl) isNext
      · intro one
        rw [noRange] at one
        cases one
      · rintro other (⟨index, bound, _⟩ | onStack)
        · rw [noRange] at bound
          exact absurd bound (Nat.not_lt_zero index)
        · rcases (onTop other).mp onStack with inRange | onRest
          · rcases (inRange_split nonempty).mp inRange with isFirst | inRest
            · exact .inl isFirst
            · exact .inr (onStack_rangeOf.mpr (.inl inRest))
          · exact .inr (onStack_rangeOf.mpr (.inr onRest))
      · intro other onStack
        right
        rcases onStack_rangeOf.mp onStack with inRest | onRest
        · exact (onTop other).mpr
            (.inl ((inRange_split nonempty).mpr (.inr inRest)))
        · exact (onTop other).mpr (.inr onRest)

/-- A range that is dropped. -/
theorem stepDrop
    (scanned : Scanned input visited excused handed work)
    (steps : Worklist.Step
      (fun memory => Allocates ⟨work.memory, input.clusters⟩ memory)
      input.weakDelegatesReachable work none work') :
    work'.memory = work.memory ∧
      Scanned input visited excused handed work' := by
  cases steps with
  | drop several behind =>
      refine ⟨rfl, ?_⟩
      refine {
        marked := scanned.marked
        visitedReached := scanned.visitedReached
        waitsReached := ?_
        targets := ?_
        fields := fun kept => absurd kept (by simp)
        roots := ?_ }
      · rintro other (⟨index, bound, _⟩ | onStack)
        · exact absurd bound (Nat.not_lt_zero index)
        · exact scanned.waitsReached other (.inr onStack)
      · intro block isVisited nonzero
        rcases scanned.targets block isVisited nonzero with alive | ⟨one, _⟩
        · exact .inl alive
        · omega
      · intro block isHanded
        rcases scanned.roots block isHanded with
          wasVisited | onStack | ⟨empty, _⟩
        · exact .inl wasVisited
        · exact .inr (.inl onStack)
        · exact absurd empty behind

/-- An empty range may start anywhere. -/
theorem restLst
    {memory : Memory}
    {dropped : Bool}
    {lst lst' : Nat}
    (scanned : Scanned input visited excused handed
      ⟨memory, dropped, lst, 0, []⟩) :
    Scanned input visited excused handed ⟨memory, dropped, lst', 0, []⟩ := by
  have noneWaits {lst block : Nat} :
      ¬ Waits ⟨memory, dropped, lst, 0, []⟩ block := by
    rintro (⟨index, bound, _⟩ | onStack)
    · exact absurd bound (Nat.not_lt_zero index)
    · exact absurd onStack onStack_nil
  refine ⟨scanned.marked, scanned.visitedReached,
    fun _ waits => absurd waits noneWaits, ?_, ?_, ?_⟩
  · intro block isVisited nonzero
    rcases scanned.targets block isVisited nonzero with alive | ⟨one, _⟩
    · exact .inl alive
    · cases one
  · intro kept owner isVisited notExcused
    rcases scanned.fields kept owner isVisited notExcused with ⟨one, _⟩ | closed
    · cases one
    · exact .inr fun block isField =>
        .inl ((closed block isField).resolve_right noneWaits)
  · intro block isHanded
    rcases scanned.roots block isHanded with
      wasVisited | onStack | ⟨_, index, bound, _⟩
    · exact .inl wasVisited
    · exact absurd onStack onStack_nil
    · exact absurd bound (Nat.not_lt_zero index)

end Scanned

end GarbageCollector

end NanoClr
