import NanoClr.GarbageCollector.ComputeReachabilityGraph

/-!
# The mark stack lists hold one stack

While a push only happens where there is room for it, the mark stack lists
together hold a stack of ranges: all lists below the current one are full, and
the current list is used up to its topmost element.  A round of the marking
loop takes the first block of the topmost range.
-/

namespace NanoClr

namespace GarbageCollector

/-! ## Well-formed lists -/

/-- Every list has room for an element above its sentinel, and the lists below
the current one are full of nonempty ranges. -/
structure MarkStacks (collector : Collector) : Prop where
  current : collector.markStack < collector.listCount
  size : ∀ list < collector.listCount, 2 ≤ (collector.lists list).size
  last : ∀ list < collector.listCount,
    (collector.lists list).last = ⟨list, (collector.lists list).size - 1⟩
  sentinel : ∀ list < collector.listCount,
    ((collector.lists list).elements 0).num = 0
  full : ∀ list < collector.markStack,
    (collector.lists list).top = (collector.lists list).last
  filled : ∀ list < collector.markStack,
    ∀ index, index + 1 < (collector.lists list).size →
      ((collector.lists list).elements (index + 1)).num ≠ 0

/-- The locals of a scan agree with the current list. -/
structure Scanning (collector : Collector) (scan : Scan) : Prop
    extends MarkStacks collector where
  stackList : scan.stackList = collector.markStack
  stackLast : scan.stackLast = (collector.lists collector.markStack).last
  inCurrent : scan.stack.list = collector.markStack
  below : scan.stack.index < (collector.lists collector.markStack).size
  used : ∀ index < scan.stack.index,
    ((collector.lists collector.markStack).elements (index + 1)).num ≠ 0

/-- Between two scans the first list is current and empty. -/
structure Idle (collector : Collector) : Prop
    extends MarkStacks collector where
  first : collector.markStack = 0
  empty : (collector.lists 0).top = ⟨0, 0⟩

/-- Only the lists matter. -/
theorem MarkStacks.congr
    {collector collector' : Collector}
    (wellFormed : MarkStacks collector)
    (lists : collector'.lists = collector.lists)
    (count : collector'.listCount = collector.listCount)
    (current : collector'.markStack = collector.markStack) :
    MarkStacks collector' := by
  obtain ⟨memory, lists, listCount, markStack, space, weak⟩ := collector'
  subst lists count current
  exact ⟨wellFormed.current, wellFormed.size, wellFormed.last,
    wellFormed.sentinel, wellFormed.full, wellFormed.filled⟩

theorem Scanning.congr
    {collector collector' : Collector}
    {scan scan' : Scan}
    (scanning : Scanning collector scan)
    (lists : collector'.lists = collector.lists)
    (count : collector'.listCount = collector.listCount)
    (current : collector'.markStack = collector.markStack)
    (stackList : scan'.stackList = scan.stackList)
    (stack : scan'.stack = scan.stack)
    (stackLast : scan'.stackLast = scan.stackLast) :
    Scanning collector' scan' := by
  have wellFormed := scanning.toMarkStacks.congr lists count current
  obtain ⟨memory, lists, listCount, markStack, space, weak⟩ := collector'
  obtain ⟨stackList, stack, stackLast, lst, num⟩ := scan'
  subst lists count current stackList stack stackLast
  exact ⟨wellFormed, scanning.stackList, scanning.stackLast, scanning.inCurrent,
    scanning.below, scanning.used⟩

/-- A scan starts with the empty stack. -/
theorem Idle.scanning
    {collector : Collector}
    (idle : Idle collector)
    (lst num : Nat) :
    Scanning collector (loadState collector lst num) := by
  have top : (collector.lists collector.markStack).top = ⟨0, 0⟩ := by
    rw [idle.first, idle.empty]
  have size := idle.size _ idle.current
  refine ⟨idle.toMarkStacks, rfl, rfl, ?_, ?_, ?_⟩
  · rw [loadState, top, idle.first]
  · simp only [loadState, top]
    omega
  · intro index used
    simp [loadState, top] at used

/-! ## The stack that the lists hold -/

/-- The elements of a buffer above its sentinel, the topmost first. -/
def segment (elements : Nat → MarkStackElement) : Nat → List MarkStackElement
  | 0 => []
  | index + 1 => elements (index + 1) :: segment elements index

/-- The elements of the lists below one of them. -/
def lowerLists (lists : Nat → MarkStack) : Nat → List MarkStackElement
  | 0 => []
  | list + 1 =>
      segment (lists list).elements (lists list).top.index ++
        lowerLists lists list

/-- All ranges on the stack, the topmost first. -/
def contents (collector : Collector) (scan : Scan) : List MarkStackElement :=
  segment (collector.lists collector.markStack).elements scan.stack.index ++
    lowerLists collector.lists collector.markStack

/-- A range, unless it is empty. -/
def rangeOf (ptr num : Nat) : List MarkStackElement :=
  if num = 0 then [] else [⟨ptr, num⟩]

@[simp] theorem rangeOf_zero (ptr : Nat) : rangeOf ptr 0 = [] := rfl

theorem rangeOf_pos {ptr num : Nat} (nonempty : num ≠ 0) :
    rangeOf ptr num = [⟨ptr, num⟩] := by
  simp [rangeOf, nonempty]

theorem segment_congr
    {elements elements' : Nat → MarkStackElement}
    {top : Nat}
    (same : ∀ index < top, elements' (index + 1) = elements (index + 1)) :
    segment elements' top = segment elements top := by
  induction top with
  | zero => rfl
  | succ top inductionHypothesis =>
      rw [segment, segment, same top (Nat.lt_succ_self top),
        inductionHypothesis fun index below =>
          same index (Nat.lt_succ_of_lt below)]

theorem segment_update
    (elements : Nat → MarkStackElement)
    (element : MarkStackElement)
    {top index : Nat}
    (beyond : top < index) :
    segment (Function.update elements index element) top =
      segment elements top := by
  apply segment_congr
  intro other below
  exact Function.update_of_ne (by omega) _ _

theorem lowerLists_congr
    {lists lists' : Nat → MarkStack}
    {list : Nat}
    (same : ∀ lower < list, lists' lower = lists lower) :
    lowerLists lists' list = lowerLists lists list := by
  induction list with
  | zero => rfl
  | succ list inductionHypothesis =>
      rw [lowerLists, lowerLists, same list (Nat.lt_succ_self list),
        inductionHypothesis fun lower below =>
          same lower (Nat.lt_succ_of_lt below)]

theorem contents_congr
    {collector collector' : Collector}
    {scan scan' : Scan}
    (lists : collector'.lists = collector.lists)
    (current : collector'.markStack = collector.markStack)
    (stack : scan'.stack = scan.stack) :
    contents collector' scan' = contents collector scan := by
  rw [contents, contents, lists, current, stack]

/-- The stack of an idle collector is empty. -/
theorem Idle.contents_nil
    {collector : Collector}
    (idle : Idle collector)
    (lst num : Nat) :
    contents collector (loadState collector lst num) = [] := by
  rw [contents, loadState, idle.first, idle.empty]
  rfl

/-! ## Changing the current list -/

section CurrentList

variable {collector : Collector} {scan : Scan}

/-- Replace the elements of the current list. -/
theorem Scanning.replace
    (scanning : Scanning collector scan)
    (stack : MarkStack)
    {collector' : Collector}
    {scan' : Scan}
    (lists : collector'.lists =
      Function.update collector.lists collector.markStack stack)
    (count : collector'.listCount = collector.listCount)
    (current : collector'.markStack = collector.markStack)
    (stackList : scan'.stackList = scan.stackList)
    (stackLast : scan'.stackLast = scan.stackLast)
    (inCurrent : scan'.stack.list = collector.markStack)
    (size : stack.size = (collector.lists collector.markStack).size)
    (last : stack.last = (collector.lists collector.markStack).last)
    (sentinel : (stack.elements 0).num = 0)
    (below : scan'.stack.index < stack.size)
    (used : ∀ index < scan'.stack.index,
      (stack.elements (index + 1)).num ≠ 0) :
    Scanning collector' scan' := by
  have lower : ∀ list < collector.markStack,
      collector'.lists list = collector.lists list := by
    intro list below
    rw [lists, Function.update_of_ne (Nat.ne_of_lt below)]
  have here : collector'.lists collector'.markStack = stack := by
    rw [lists, current, Function.update_self]
  have always : ∀ list, collector'.lists list = collector.lists list ∨
      list = collector.markStack ∧ collector'.lists list = stack := by
    intro list
    by_cases isCurrent : list = collector.markStack
    · subst isCurrent
      exact .inr ⟨rfl, by rw [lists, Function.update_self]⟩
    · exact .inl (by rw [lists, Function.update_of_ne isCurrent])
  refine ⟨⟨?_, ?_, ?_, ?_, ?_, ?_⟩, ?_, ?_, ?_, ?_, ?_⟩
  · rw [current, count]
    exact scanning.current
  · intro list bound
    rw [count] at bound
    obtain same | ⟨rfl, same⟩ := always list
    · rw [same]
      exact scanning.size list bound
    · rw [same, size]
      exact scanning.size _ bound
  · intro list bound
    rw [count] at bound
    obtain same | ⟨rfl, same⟩ := always list
    · rw [same]
      exact scanning.last list bound
    · rw [same, last, size]
      exact scanning.last _ bound
  · intro list bound
    rw [count] at bound
    obtain same | ⟨rfl, same⟩ := always list
    · rw [same]
      exact scanning.sentinel list bound
    · rw [same]
      exact sentinel
  · intro list bound
    rw [current] at bound
    rw [lower list bound]
    exact scanning.full list bound
  · intro list bound
    rw [current] at bound
    rw [lower list bound]
    exact scanning.filled list bound
  · rw [stackList, current]
    exact scanning.stackList
  · rw [stackLast, here, last]
    exact scanning.stackLast
  · rw [inCurrent, current]
  · rw [here]
    exact below
  · rw [here]
    exact used

/-- The ranges of the lists below stay when the current list changes. -/
theorem contents_replace
    (collector : Collector)
    (stack : MarkStack)
    {collector' : Collector}
    {scan' : Scan}
    (lists : collector'.lists =
      Function.update collector.lists collector.markStack stack)
    (current : collector'.markStack = collector.markStack) :
    contents collector' scan' =
      segment stack.elements scan'.stack.index ++
        lowerLists collector.lists collector.markStack := by
  have lower : lowerLists collector'.lists collector.markStack =
      lowerLists collector.lists collector.markStack := by
    apply lowerLists_congr
    intro list below
    rw [lists, Function.update_of_ne (Nat.ne_of_lt below)]
  rw [contents, current, lower, lists, Function.update_self]

/-- Saving the state of the current list keeps the scan. -/
theorem Scanning.saved
    (scanning : Scanning collector scan) :
    Scanning (saveState collector scan) scan := by
  refine scanning.replace
    { collector.lists collector.markStack with
      last := scan.stackLast
      top := scan.stack } rfl rfl scanning.stackList rfl rfl
    scanning.inCurrent rfl scanning.stackLast
    (scanning.sentinel _ scanning.current) scanning.below scanning.used

/-- Taking a block shortens the topmost range. -/
theorem Scanning.taking
    (scanning : Scanning collector scan)
    (nonempty : (element collector scan.stack).num ≠ 0) :
    ∃ collector' scan' block num rest,
      takeBlock collector scan = (collector', scan', block) ∧
      Scanning collector' scan' ∧
      num ≠ 0 ∧
      contents collector scan = ⟨block, num⟩ :: rest ∧
      contents collector' scan' = rangeOf (block + 3) (num - 1) ++ rest ∧
      collector' = { collector with lists := collector'.lists } ∧
      scan' = { scan with stack := scan'.stack } := by
  obtain ⟨stackList, ⟨list, index⟩, stackLast, lst, num⟩ := scan
  have inCurrent : list = collector.markStack := scanning.inCurrent
  subst inCurrent
  have used := scanning.used
  have below := scanning.below
  have sentinel := scanning.sentinel _ scanning.current
  cases index with
  | zero => exact absurd sentinel nonempty
  | succ index =>
      set stack := collector.lists collector.markStack with stackDef
      set top := stack.elements (index + 1) with topDef
      have topNum : top.num ≠ 0 := nonempty
      have old : contents collector
          ⟨stackList, ⟨collector.markStack, index + 1⟩, stackLast, lst, num⟩ =
          top :: (segment stack.elements index ++
            lowerLists collector.lists collector.markStack) := rfl
      refine ⟨_, _, _, top.num, _, rfl, ?_, topNum, old, ?_, rfl, ?_⟩
      · refine scanning.replace
          { stack with
            elements := Function.update stack.elements (index + 1)
              ⟨top.ptr + 3, top.num - 1⟩ }
          rfl rfl rfl ?_ ?_ ?_ rfl rfl ?_ ?_ ?_
        · split <;> rfl
        · split <;> rfl
        · split <;> rfl
        · simpa using sentinel
        · split
          · exact Nat.lt_of_succ_lt below
          · exact below
        · intro other bound
          by_cases isTop : other = index
          · subst isTop
            simp only [Function.update_self]
            split at bound
            · exact absurd bound (Nat.lt_irrefl other)
            · assumption
          · simp only [Function.update_of_ne
              (show other + 1 ≠ index + 1 by omega)]
            split at bound
            · exact used other (Nat.lt_succ_of_lt bound)
            · exact used other bound
      · refine (contents_replace collector { stack with
          elements := Function.update stack.elements (index + 1)
            ⟨top.ptr + 3, top.num - 1⟩ } ?_ ?_).trans ?_
        · rfl
        · rfl
        change segment (Function.update stack.elements (index + 1)
            ⟨top.ptr + 3, top.num - 1⟩)
          (ite (top.num - 1 = 0) _ _ : Scan).stack.index ++ _ = _
        split
        · rename_i single
          rw [single, rangeOf_zero]
          change segment _ index ++ _ = _
          rw [segment_update _ _ (Nat.lt_succ_self index)]
          rfl
        · rename_i several
          rw [rangeOf_pos several]
          change segment _ (index + 1) ++ _ = _
          rw [segment, Function.update_self,
            segment_update _ _ (Nat.lt_succ_self index)]
          rfl
      · split <;> rfl

/-- Pushing the rest of a range where there is room. -/
theorem Scanning.pushing
    (scanning : Scanning collector scan)
    (several : 1 < scan.num)
    (room : scan.stack.index + 1 <
      (collector.lists collector.markStack).size) :
    ∃ collector' scan',
      pushRest collector scan = (collector', scan') ∧
      Scanning collector' scan' ∧
      contents collector' scan' =
        ⟨scan.lst + 3, scan.num - 1⟩ :: contents collector scan ∧
      collector' = { collector with lists := collector'.lists } ∧
      scan'.lst = scan.lst := by
  obtain ⟨stackList, ⟨list, index⟩, stackLast, lst, num⟩ := scan
  have inCurrent : list = collector.markStack := scanning.inCurrent
  subst inCurrent
  have used := scanning.used
  have sentinel := scanning.sentinel _ scanning.current
  have positive : num - 1 ≠ 0 := by
    simp only at several
    omega
  set stack := collector.lists collector.markStack with stackDef
  refine ⟨_, _, rfl, ?_, ?_, rfl, rfl⟩
  · refine scanning.replace
      { stack with
        elements := Function.update stack.elements (index + 1)
          ⟨lst + 3, num - 1⟩ }
      rfl rfl rfl rfl rfl rfl rfl rfl ?_ room ?_
    · simpa using sentinel
    · intro other bound
      by_cases isTop : other = index
      · subst isTop
        simpa using positive
      · simp only [Function.update_of_ne
          (show other + 1 ≠ index + 1 by omega)]
        have smaller : other < index + 1 := bound
        exact used other (by simp only; omega)
  · refine (contents_replace collector { stack with
      elements := Function.update stack.elements (index + 1)
        ⟨lst + 3, num - 1⟩ } ?_ ?_).trans ?_
    · rfl
    · rfl
    change segment (Function.update stack.elements (index + 1)
      ⟨lst + 3, num - 1⟩) (index + 1) ++ _ = _
    rw [segment, Function.update_self,
      segment_update _ _ (Nat.lt_succ_self index)]
    rfl

end CurrentList

/-! ## Changing lists -/

section Lists

variable {collector : Collector} {scan : Scan}

/-- A full list is extended by a new one with room for a push. -/
theorem Scanning.extending
    (scanning : Scanning collector scan)
    {cElement : Nat}
    (memory : Memory)
    (isFull : scan.stack = scan.stackLast)
    (isLast : ¬ scan.stackList + 1 < collector.listCount)
    (several : 2 ≤ cElement) :
    ∃ collector' scan',
      extend collector scan cElement memory = (collector', scan') ∧
      Scanning collector' scan' ∧
      scan'.stack.index + 1 <
        (collector'.lists collector'.markStack).size ∧
      contents collector' scan' = contents collector scan ∧
      collector'.memory = memory ∧
      collector'.outOfStackSpaceForGC = collector.outOfStackSpaceForGC ∧
      collector'.weakDelegatesReachable = collector.weakDelegatesReachable ∧
      scan'.lst = scan.lst ∧ scan'.num = scan.num := by
  have current := scanning.current
  have stackList := scanning.stackList
  have count : collector.listCount = collector.markStack + 1 := by
    rw [stackList] at isLast
    omega
  have stackLast := scanning.stackLast
  have lastHere := scanning.last _ current
  have sizeHere := scanning.size _ current
  have topIndex : scan.stack.index + 1 =
      (collector.lists collector.markStack).size := by
    rw [isFull, stackLast, lastHere]
    simp only
    omega
  set old : MarkStack := { collector.lists collector.markStack with
    last := scan.stackLast
    top := scan.stack } with oldDef
  set saved := Function.update collector.lists collector.markStack old
    with savedDef
  set new := markStackInitialize (saved collector.listCount)
    collector.listCount cElement with newDef
  set lists := Function.update saved collector.listCount new with listsDef
  have atNew : lists collector.listCount = new := Function.update_self _ _ _
  have atOld : lists collector.markStack = old := by
    rw [listsDef, Function.update_of_ne (by omega), savedDef,
      Function.update_self]
  have below : ∀ list < collector.markStack,
      lists list = collector.lists list := by
    intro list bound
    rw [listsDef, Function.update_of_ne (by omega), savedDef,
      Function.update_of_ne (by omega)]
  have cases : ∀ list < collector.listCount + 1,
      list < collector.markStack ∨ list = collector.markStack ∨
        list = collector.listCount := by
    intro list bound
    omega
  refine ⟨_, _, rfl, ⟨⟨Nat.lt_succ_self _, ?_, ?_, ?_, ?_, ?_⟩, rfl, rfl, ?_,
    ?_, ?_⟩, ?_, ?_, rfl, rfl, rfl, rfl, rfl⟩
  · intro list bound
    change 2 ≤ (lists list).size
    obtain lower | rfl | rfl := cases list bound
    · rw [below list lower]
      exact scanning.size list (by omega)
    · rw [atOld]
      exact sizeHere
    · rw [atNew]
      exact several
  · intro list bound
    change (lists list).last = ⟨list, (lists list).size - 1⟩
    obtain lower | rfl | rfl := cases list bound
    · rw [below list lower]
      exact scanning.last list (by omega)
    · rw [atOld]
      exact stackLast.trans lastHere
    · rw [atNew]
      rfl
  · intro list bound
    change ((lists list).elements 0).num = 0
    obtain lower | rfl | rfl := cases list bound
    · rw [below list lower]
      exact scanning.sentinel list (by omega)
    · rw [atOld]
      exact scanning.sentinel _ current
    · rw [atNew]
      simp [newDef, markStackInitialize]
  · intro list bound
    change (lists list).top = (lists list).last
    obtain lower | rfl : list < collector.markStack ∨
        list = collector.markStack := by
      have : list < collector.listCount := bound
      omega
    · rw [below list lower]
      exact scanning.full list lower
    · rw [atOld]
      exact isFull
  · intro list bound
    change ∀ index, index + 1 < (lists list).size →
      ((lists list).elements (index + 1)).num ≠ 0
    obtain lower | rfl : list < collector.markStack ∨
        list = collector.markStack := by
      have : list < collector.listCount := bound
      omega
    · rw [below list lower]
      exact scanning.filled list lower
    · rw [atOld]
      intro index inside
      apply scanning.used
      have : index + 1 < (collector.lists collector.markStack).size := inside
      omega
  · change (lists collector.listCount).top.list = collector.listCount
    rw [atNew]
    rfl
  · change (lists collector.listCount).top.index <
      (lists collector.listCount).size
    rw [atNew]
    exact Nat.lt_of_lt_of_le Nat.zero_lt_two several
  · change ∀ index < (lists collector.listCount).top.index, _
    rw [atNew]
    intro index bound
    exact absurd bound (Nat.not_lt_zero index)
  · change (lists collector.listCount).top.index + 1 <
      (lists collector.listCount).size
    rw [atNew]
    exact several
  · change segment (lists collector.listCount).elements
        (lists collector.listCount).top.index ++
          lowerLists lists collector.listCount = _
    rw [atNew, count, lowerLists, atOld, lowerLists_congr below]
    rfl

/-- When the current list is used up, the full list below it is current. -/
theorem Scanning.previous
    (scanning : Scanning collector scan)
    (emptied : (element collector scan.stack).num = 0)
    (notFirst : scan.stackList ≠ 0) :
    ∃ collector' scan',
      { saveState collector scan with markStack := scan.stackList - 1 } =
        collector' ∧
      loadState collector' scan.lst scan.num = scan' ∧
      Scanning collector' scan' ∧
      (element collector' scan'.stack).num ≠ 0 ∧
      contents collector' scan' = contents collector scan := by
  have current := scanning.current
  have stackList := scanning.stackList
  have bottom : scan.stack.index = 0 := by
    by_contra positive
    apply scanning.used (scan.stack.index - 1) (by omega)
    rw [show scan.stack.index - 1 + 1 = scan.stack.index by omega,
      ← scanning.inCurrent]
    exact emptied
  obtain ⟨list, isCurrent⟩ : ∃ list, collector.markStack = list + 1 :=
    Nat.exists_eq_succ_of_ne_zero (by rw [← stackList]; exact notFirst)
  have before : list < collector.markStack := by omega
  have saved := scanning.saved.toMarkStacks
  have lists : ∀ lower < collector.markStack,
      (saveState collector scan).lists lower = collector.lists lower := by
    intro lower bound
    exact Function.update_of_ne (Nat.ne_of_lt bound) _ _
  have atList := lists list before
  have full := scanning.full list before
  have last := scanning.last list (by omega)
  have size := scanning.size list (by omega)
  have isLast : (collector.lists list).top =
      ⟨list, (collector.lists list).size - 1⟩ := full.trans last
  have current' : scan.stackList - 1 = list := by omega
  rw [current']
  refine ⟨_, _, rfl, rfl, ⟨⟨?_, saved.size, saved.last, saved.sentinel, ?_, ?_⟩,
    rfl, rfl, ?_, ?_, ?_⟩, ?_, ?_⟩
  · change list < collector.listCount
    omega
  · intro lower bound
    have bound : lower < list := bound
    change ((saveState collector scan).lists lower).top = _
    rw [lists lower (by omega)]
    exact scanning.full lower (by omega)
  · intro lower bound
    have bound : lower < list := bound
    change ∀ index, index + 1 < ((saveState collector scan).lists lower).size →
      (((saveState collector scan).lists lower).elements (index + 1)).num ≠ 0
    rw [lists lower (by omega)]
    exact scanning.filled lower (by omega)
  · change ((saveState collector scan).lists list).top.list = list
    rw [atList, isLast]
  · change ((saveState collector scan).lists list).top.index <
      ((saveState collector scan).lists list).size
    rw [atList, isLast]
    simp only
    omega
  · change ∀ index < ((saveState collector scan).lists list).top.index,
      (((saveState collector scan).lists list).elements (index + 1)).num ≠ 0
    rw [atList, isLast]
    intro index bound
    exact scanning.filled list before index (by simp only at bound; omega)
  · change (((saveState collector scan).lists
      ((saveState collector scan).lists list).top.list).elements
        ((saveState collector scan).lists list).top.index).num ≠ 0
    rw [atList, isLast]
    simp only
    rw [atList]
    have filled := scanning.filled list before
      ((collector.lists list).size - 2) (by omega)
    rwa [show (collector.lists list).size - 2 + 1 =
      (collector.lists list).size - 1 by omega] at filled
  · change segment ((saveState collector scan).lists list).elements
        ((saveState collector scan).lists list).top.index ++
          lowerLists (saveState collector scan).lists list = _
    rw [atList, lowerLists_congr fun lower bound => lists lower (by omega),
      contents, bottom, isCurrent]
    rfl

end Lists

end GarbageCollector

end NanoClr
