import Mathlib.Tactic.IntervalCases
import NanoClr.GarbageCollector.MarkStackInvariant

/-!
# The marking loop is a worklist

The marking loop refines a worklist of ranges as long as every push finds room:
the current list is not full, or it is the last one and the list that extends
it has more than one element.
-/

namespace NanoClr

namespace GarbageCollector

/-! ## The worklist -/

/-- The abstract marker: memory, whether a range was dropped, the range to
visit next, and the stack of the ranges behind it. -/
structure Worklist where
  memory : Memory
  dropped : Bool
  lst : Nat
  num : Nat
  stack : List MarkStackElement

namespace Worklist

/-- Visit a block, leaving the given stack. -/
def visitBlock
    (work : Worklist)
    (memory : Memory)
    (weakDelegates block : Nat)
    (stack : List MarkStackElement) : Worklist :=
  { memory := (visit memory weakDelegates block).1
    dropped := work.dropped
    lst := (visit memory weakDelegates block).2.1
    num := (visit memory weakDelegates block).2.2
    stack }

/-- One round on a worklist: the first block of the next range is visited, in
memory as it is or as an allocation left it, or else the first block on the
stack is; or a range of several blocks that does not come first is dropped.  The
step is labelled with the block that it visits. -/
inductive Step (allocated : Memory → Prop) (weakDelegates : Nat) :
    Worklist → Option Nat → Worklist → Prop
  | next
      (work : Worklist)
      (memory : Memory)
      (nonempty : work.num ≠ 0)
      (source : memory = work.memory ∨ allocated memory) :
      Step allocated weakDelegates work (some work.lst)
        (work.visitBlock memory weakDelegates work.lst
          (rangeOf (work.lst + 3) (work.num - 1) ++ work.stack))
  | pop
      (work : Worklist)
      (block num : Nat)
      (rest : List MarkStackElement)
      (noRange : work.num = 0)
      (top : work.stack = ⟨block, num⟩ :: rest)
      (nonempty : num ≠ 0) :
      Step allocated weakDelegates work (some block)
        (work.visitBlock work.memory weakDelegates block
          (rangeOf (block + 3) (num - 1) ++ rest))
  | drop
      (work : Worklist)
      (several : 1 < work.num)
      (behind : work.stack ≠ []) :
      Step allocated weakDelegates work none
        { work with dropped := true, lst := 0, num := 0 }

end Worklist

/-- The worklist that a scan holds. -/
def worklist (collector : Collector) (scan : Scan) : Worklist :=
  { memory := collector.memory
    dropped := collector.outOfStackSpaceForGC
    lst := scan.lst
    num := scan.num
    stack := contents collector scan }

/-! ## Room -/

/-- A push finds room: when the current list is full, no later list exists and
the allocation of a new one does not end with a single element. -/
def HasRoom
    (allocate : Nat → Option Memory)
    (collector : Collector)
    (scan : Scan) : Prop :=
  1 < scan.num → scan.stack = scan.stackLast →
    ¬ scan.stackList + 1 < collector.listCount ∧
      (collector.outOfStackSpaceForGC = false →
        ∀ memory, granted allocate ≠ some (1, memory))

/-- The block that a round visits, if it visits one: a range that finds no room
is dropped. -/
def nextBlock
    (allocate : Nat → Option Memory)
    (collector : Collector)
    (scan : Scan) : Option Nat :=
  if scan.num = 0 then (contents collector scan).head?.map (·.ptr)
  else if 1 < scan.num ∧ (makeRoom allocate collector scan).isNone then none
  else some scan.lst

/-- A size that was granted was allocated, and is at least one. -/
theorem granted_spec
    {allocate : Nat → Option Memory}
    {cElement : Nat}
    {memory : Memory}
    (isGranted : granted allocate = some (cElement, memory)) :
    allocate cElement = some memory ∧ 0 < cElement := by
  obtain ⟨size, member, allocated⟩ := List.exists_of_findSome?_eq_some isGranted
  obtain ⟨result, succeeds, same⟩ := Option.map_eq_some_iff.mp allocated
  obtain ⟨rfl, rfl⟩ := Prod.mk.inj same
  refine ⟨succeeds, ?_⟩
  obtain ⟨exponent, bound, rfl⟩ := List.mem_map.mp member
  rw [List.mem_range] at bound
  interval_cases exponent <;> decide

section Round

variable
  {allocate : Nat → Option Memory}
  {collector : Collector}
  {scan : Scan}

/-- A push that finds room has it in a list that is not full. -/
theorem Scanning.makingRoom
    (scanning : Scanning collector scan)
    (several : 1 < scan.num)
    (room : HasRoom allocate collector scan) :
    makeRoom allocate collector scan = none ∨
      ∃ collector' scan',
        makeRoom allocate collector scan = some (collector', scan') ∧
        Scanning collector' scan' ∧
        scan'.stack.index + 1 <
          (collector'.lists collector'.markStack).size ∧
        contents collector' scan' = contents collector scan ∧
        (collector'.memory = collector.memory ∨
          ∃ size, allocate size = some collector'.memory) ∧
        collector'.outOfStackSpaceForGC = collector.outOfStackSpaceForGC ∧
        collector'.weakDelegatesReachable = collector.weakDelegatesReachable ∧
        scan'.lst = scan.lst ∧ scan'.num = scan.num := by
  unfold makeRoom
  by_cases isFull : scan.stack = scan.stackLast
  · obtain ⟨isLast, notSingle⟩ := room several isFull
    rw [if_pos isFull, if_neg isLast]
    cases outOfSpace : collector.outOfStackSpaceForGC with
    | true => exact .inl rfl
    | false =>
        rw [if_neg Bool.false_ne_true]
        cases isGranted : granted allocate with
        | none => exact .inl rfl
        | some result =>
            obtain ⟨cElement, memory⟩ := result
            obtain ⟨allocated, positive⟩ := granted_spec isGranted
            have twoOrMore : 2 ≤ cElement := by
              have single : cElement ≠ 1 := by
                rintro rfl
                exact notSingle outOfSpace memory isGranted
              omega
            obtain ⟨collector', scan', extends_, wellFormed, space, same,
              memory', flag, weak, lst, num⟩ :=
              scanning.extending memory isFull isLast twoOrMore
            refine .inr ⟨collector', scan', ?_, wellFormed, space, same,
              .inr ⟨cElement, ?_⟩, ?_, weak, lst, num⟩
            · exact congrArg some extends_
            · rw [memory', allocated]
            · rw [flag, outOfSpace]
  · rw [if_neg isFull]
    refine .inr ⟨collector, scan, rfl, scanning, ?_, rfl, .inl rfl, rfl, rfl,
      rfl, rfl⟩
    have below := scanning.below
    have last := scanning.last _ scanning.current
    by_contra atEnd
    apply isFull
    rw [scanning.stackLast, last, ← scanning.inCurrent]
    obtain ⟨stackList, ⟨list, index⟩, stackLast, lst, num⟩ := scan
    have inCurrent : list = collector.markStack := scanning.inCurrent
    subst inCurrent
    simp only at atEnd below ⊢
    congr 1
    omega

/-- Visiting a block leaves the lists. -/
theorem Scanning.visiting
    (scanning : Scanning collector scan)
    (block : Nat) :
    ∃ collector' scan',
      visitBlock collector scan block = (collector', scan') ∧
      Scanning collector' scan' ∧
      contents collector' scan' = contents collector scan ∧
      collector'.memory =
        (visit collector.memory collector.weakDelegatesReachable block).1 ∧
      (scan'.lst, scan'.num) =
        (visit collector.memory collector.weakDelegatesReachable block).2 ∧
      collector'.outOfStackSpaceForGC = collector.outOfStackSpaceForGC ∧
      collector'.weakDelegatesReachable =
        collector.weakDelegatesReachable :=
  ⟨_, _, rfl, scanning.congr rfl rfl rfl rfl rfl rfl,
    contents_congr rfl rfl rfl, rfl, rfl, rfl, rfl⟩

/-- Only a full list has no room, and it holds a range. -/
theorem Scanning.contents_ne_nil
    (scanning : Scanning collector scan)
    (fails : makeRoom allocate collector scan = none) :
    contents collector scan ≠ [] := by
  have isFull : scan.stack = scan.stackLast := by
    by_contra notFull
    rw [makeRoom, if_neg notFull] at fails
    cases fails
  have last := scanning.last _ scanning.current
  have size := scanning.size _ scanning.current
  have index : scan.stack.index =
      (collector.lists collector.markStack).size - 2 + 1 := by
    rw [isFull, scanning.stackLast, last]
    simp only
    omega
  rw [contents, index, segment, List.cons_append]
  exact List.cons_ne_nil _ _

/-- A round on a nonempty stack takes its first block. -/
theorem Scanning.takingAndVisiting
    (scanning : Scanning collector scan)
    (nonempty : (element collector scan.stack).num ≠ 0) :
    ∃ collector' scan' block num rest,
      visitBlock (takeBlock collector scan).1 (takeBlock collector scan).2.1
          (takeBlock collector scan).2.2 = (collector', scan') ∧
      Scanning collector' scan' ∧
      num ≠ 0 ∧
      contents collector scan = ⟨block, num⟩ :: rest ∧
      worklist collector' scan' =
        (worklist collector scan).visitBlock collector.memory
          collector.weakDelegatesReachable block
          (rangeOf (block + 3) (num - 1) ++ rest) ∧
      collector'.weakDelegatesReachable =
        collector.weakDelegatesReachable := by
  obtain ⟨taken, scanTaken, block, num, rest, takes, wellFormed, positive, old,
    new, sameCollector, sameScan⟩ := scanning.taking nonempty
  obtain ⟨collector', scan', visits, wellFormed', same, memory, range, flag,
    weak⟩ := wellFormed.visiting block
  have takenMemory : taken.memory = collector.memory := by
    rw [sameCollector]
  have takenWeak : taken.weakDelegatesReachable =
      collector.weakDelegatesReachable := by
    rw [sameCollector]
  have takenFlag : taken.outOfStackSpaceForGC =
      collector.outOfStackSpaceForGC := by
    rw [sameCollector]
  rw [takenMemory, takenWeak] at memory range
  refine ⟨collector', scan', block, num, rest, ?_, wellFormed', positive, old,
    ?_, weak.trans takenWeak⟩
  · rw [takes]
    exact visits
  · rw [worklist, memory, flag, takenFlag, same, new, Worklist.visitBlock,
      ← range]
    rfl

/-- A round of the marking loop, where every push finds room, is a round of the
worklist, and the loop ends when the worklist is empty. -/
theorem Scanning.refines
    (scanning : Scanning collector scan)
    (room : HasRoom allocate collector scan) :
    (∃ collector',
      round allocate collector scan = .done collector' ∧
      Idle collector' ∧
      scan.num = 0 ∧
      contents collector scan = [] ∧
      collector'.memory = collector.memory ∧
      collector'.outOfStackSpaceForGC = collector.outOfStackSpaceForGC ∧
      collector'.weakDelegatesReachable =
        collector.weakDelegatesReachable) ∨
    ∃ collector' scan',
      round allocate collector scan = .next (collector', scan') ∧
      Scanning collector' scan' ∧
      Worklist.Step (fun memory => ∃ size, allocate size = some memory)
        collector.weakDelegatesReachable (worklist collector scan)
        (nextBlock allocate collector scan) (worklist collector' scan') ∧
      collector'.weakDelegatesReachable =
        collector.weakDelegatesReachable := by
  unfold round nextBlock
  by_cases noRange : scan.num = 0
  · rw [if_pos noRange, if_pos noRange]
    by_cases emptied : (element collector scan.stack).num = 0
    · rw [if_pos emptied]
      by_cases isFirst : scan.stackList = 0
      · rw [if_pos isFirst]
        have first : collector.markStack = 0 := by
          rw [← scanning.stackList, isFirst]
        have bottom : scan.stack = ⟨0, 0⟩ := by
          obtain ⟨stackList, ⟨list, index⟩, stackLast, lst, num⟩ := scan
          have inCurrent : list = collector.markStack := scanning.inCurrent
          subst inCurrent
          cases index with
          | zero => rw [first]
          | succ index =>
              exact absurd emptied (scanning.used index (Nat.lt_succ_self _))
        have saved := scanning.saved.toMarkStacks
        have current : (saveState collector scan).markStack =
            collector.markStack := scanning.stackList
        refine .inl ⟨_, rfl, ⟨saved, current.trans first, ?_⟩, noRange, ?_,
          rfl, rfl, rfl⟩
        · rw [saveState, first]
          simp [bottom]
        · rw [contents, bottom, first]
          rfl
      · rw [if_neg isFirst]
        obtain ⟨before, scanBefore, same, sameScan, wellFormed, nonempty,
          sameContents⟩ := scanning.previous emptied isFirst
        obtain ⟨collector', scan', block, num, rest, visits, wellFormed',
          positive, old, work, weak⟩ := wellFormed.takingAndVisiting nonempty
        have beforeMemory : before.memory = collector.memory := by
          rw [← same]
          rfl
        have beforeWeak : before.weakDelegatesReachable =
            collector.weakDelegatesReachable := by
          rw [← same]
          rfl
        have beforeFlag : (worklist before scanBefore).dropped =
            (worklist collector scan).dropped := by
          rw [← same]
          rfl
        refine .inr ⟨collector', scan', ?_, wellFormed', ?_,
          weak.trans beforeWeak⟩
        · simp only [same, sameScan]
          exact congrArg LoopStep.next visits
        · rw [work, beforeMemory, beforeWeak, Worklist.visitBlock, beforeFlag,
            ← sameContents, old]
          apply Worklist.Step.pop _ _ _ _ noRange _ positive
          exact sameContents.symm.trans old
    · rw [if_neg emptied]
      obtain ⟨collector', scan', block, num, rest, visits, wellFormed',
        positive, old, work, weak⟩ := scanning.takingAndVisiting emptied
      refine .inr ⟨collector', scan', congrArg LoopStep.next visits,
        wellFormed', ?_, weak⟩
      rw [work, old]
      exact Worklist.Step.pop _ _ _ _ noRange old positive
  · rw [if_neg noRange, if_neg noRange]
    by_cases several : 1 < scan.num
    · rw [if_pos several]
      obtain fails | ⟨roomy, scanRoomy, makes, wellFormed, space, same, source,
          flag, weak, lst, num⟩ := scanning.makingRoom several room
      · rw [fails, if_pos ⟨several, rfl⟩]
        refine .inr ⟨_, _, rfl, scanning.congr rfl rfl rfl rfl rfl rfl, ?_, rfl⟩
        exact Worklist.Step.drop (worklist collector scan) several
          (scanning.contents_ne_nil fails)
      · obtain ⟨pushed, scanPushed, pushes, wellFormed', contents', onlyLists,
          lst'⟩ := wellFormed.pushing (by omega) space
        obtain ⟨collector', scan', visits, wellFormed'', same', memory', range,
          flag', weak'⟩ := wellFormed'.visiting scanPushed.lst
        have pushedMemory : pushed.memory = roomy.memory := by
          rw [onlyLists]
        have pushedWeak : pushed.weakDelegatesReachable =
            collector.weakDelegatesReachable := by
          rw [onlyLists]
          exact weak
        have pushedFlag : pushed.outOfStackSpaceForGC =
            collector.outOfStackSpaceForGC := by
          rw [onlyLists]
          exact flag
        rw [makes, if_neg (by simp)]
        simp only [pushes]
        refine .inr ⟨collector', scan', congrArg LoopStep.next visits,
          wellFormed'', ?_, weak'.trans pushedWeak⟩
        rw [lst', lst, pushedMemory, pushedWeak] at memory' range
        have work : worklist collector' scan' =
            (worklist collector scan).visitBlock roomy.memory
              collector.weakDelegatesReachable scan.lst
              (rangeOf (scan.lst + 3) (scan.num - 1) ++
                contents collector scan) := by
          rw [worklist, memory', flag', pushedFlag, same', contents',
            Worklist.visitBlock, ← range, lst, num, same,
            rangeOf_pos (show scan.num - 1 ≠ 0 by omega)]
          rfl
        rw [work]
        exact Worklist.Step.next (worklist collector scan) roomy.memory noRange
          source
    · have single : scan.num = 1 := by omega
      rw [if_neg several, if_neg (fun both => several both.1)]
      obtain ⟨collector', scan', visits, wellFormed', same, memory, range, flag,
        weak⟩ := scanning.visiting scan.lst
      refine .inr ⟨collector', scan', congrArg LoopStep.next visits,
        wellFormed', ?_, weak⟩
      have work : worklist collector' scan' =
          (worklist collector scan).visitBlock collector.memory
            collector.weakDelegatesReachable scan.lst
            (rangeOf (scan.lst + 3) (scan.num - 1) ++
              contents collector scan) := by
        rw [worklist, memory, flag, same, Worklist.visitBlock, ← range,
          single, Nat.sub_self, rangeOf_zero]
        rfl
      rw [work]
      exact Worklist.Step.next (worklist collector scan) collector.memory
        noRange (.inl rfl)

end Round

end GarbageCollector

end NanoClr
