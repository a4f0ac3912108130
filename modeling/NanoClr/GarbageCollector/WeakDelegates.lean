import NanoClr.GarbageCollector.MarkRuns

/-!
# The list of reachable weak delegate lists

The list holds the weak delegate lists that were visited, each once, as long as
none is visited again: linking a list that is linked already clears its links
first, and the links from the tail back never reach the head any more.
-/

namespace NanoClr

open HeapBlock HeapCluster

namespace GarbageCollector

/-! ## The list of weak delegate lists -/

/-- The list links the weak delegate lists that were visited, each once. -/
structure WeakChain
    (input : MarkInput)
    (visited : Nat → Prop)
    (memory : Memory)
    (nodes : List Nat) : Prop where
  linked : Linked (next memory) (prev memory)
    (head input.weakDelegatesReachable :: nodes ++
      [tail input.weakDelegatesReachable])
  first : prev memory (head input.weakDelegatesReachable) = 0
  last : next memory (tail input.weakDelegatesReachable) = 0
  nodup : nodes.Nodup
  members : ∀ block, block ∈ nodes ↔
    visited block ∧ isWeakDelegateList input.memory block = true

namespace WeakChain

variable
  {input : MarkInput}
  {visited : Nat → Prop}
  {memory memory' : Memory}
  {nodes : List Nat}
  {block : Nat}

/-- The list is empty at the start. -/
theorem start (graph : GraphWellFormed input) :
    WeakChain input (fun _ => False)
      (dblLinkedListInitialize memory input.weakDelegatesReachable) [] := by
  have nonzero := graph.sentinel
  obtain ⟨list, isList⟩ : ∃ list, input.weakDelegatesReachable = list + 1 :=
    Nat.exists_eq_succ_of_ne_zero nonzero
  refine ⟨?_, ?_, ?_, List.nodup_nil, by simp⟩
  · refine List.isChain_cons_cons.mpr ⟨⟨?_, ?_⟩, List.isChain_singleton _⟩
    · simp [next, head, tail, dblLinkedListInitialize, isList]
    · simp [prev, head, tail, dblLinkedListInitialize, isList]
  · simp [prev, head, dblLinkedListInitialize, isList]
  · simp [next, tail, dblLinkedListInitialize, isList]

/-- The links of the list are in the words of its nodes and sentinels. -/
theorem congr
    (graph : GraphWellFormed input)
    (chain : WeakChain input visited memory nodes)
    (sentinels : ∀ offset < 3,
      memory' (input.weakDelegatesReachable + offset) =
        memory (input.weakDelegatesReachable + offset))
    (links : ∀ node ∈ nodes,
      memory' (node + 1) = memory (node + 1) ∧
        memory' (node + 2) = memory (node + 2)) :
    WeakChain input visited memory' nodes := by
  obtain ⟨list, isList⟩ : ∃ list, input.weakDelegatesReachable = list + 1 :=
    Nat.exists_eq_succ_of_ne_zero graph.sentinel
  have atHead : head input.weakDelegatesReachable + 1 =
      input.weakDelegatesReachable + 0 := by
    rw [head]
    omega
  have behindHead : head input.weakDelegatesReachable + 2 =
      input.weakDelegatesReachable + 1 := by
    rw [head]
    omega
  refine ⟨chain.linked.congr ?_ ?_, ?_, ?_, chain.nodup, chain.members⟩
  · intro node member
    rw [List.dropLast_concat] at member
    rcases List.mem_cons.mp member with rfl | isNode
    · rw [next, next, atHead]
      exact sentinels 0 (by decide)
    · exact (links node isNode).1
  · intro node member
    rw [List.cons_append, List.tail_cons] at member
    rcases List.mem_append.mp member with isNode | isTail
    · exact (links node isNode).2
    · rw [List.mem_singleton.mp isTail]
      exact sentinels 2 (by decide)
  · rw [prev, behindHead, sentinels 1 (by decide), ← behindHead]
    exact chain.first
  · rw [next, tail, sentinels 1 (by decide)]
    exact chain.last

/-- The last node is the one behind which the next list is linked. -/
theorem last_node
    (chain : WeakChain input visited memory nodes)
    {lefts : List Nat}
    {left : Nat}
    (isLast : head input.weakDelegatesReachable :: nodes = lefts ++ [left]) :
    Linked (next memory) (prev memory) (lefts ++ [left]) ∧
      memory (input.weakDelegatesReachable + 2) = left := by
  have linked := chain.linked
  rw [isLast, List.append_assoc, List.singleton_append] at linked
  exact ⟨linked.upTo, linked.pair.2⟩

/-- A list that is not linked yet is linked at the back. -/
theorem append
    (graph : GraphWellFormed input)
    (chain : WeakChain input visited memory nodes)
    (visitedReached : ∀ other, visited other → Reached input other)
    (reached : Reached input block)
    (isWeak : isWeakDelegateList input.memory block = true)
    (fresh : ¬ visited block) :
    WeakChain input (fun other => visited other ∨ other = block)
      (insertNode (clearData (markAlive memory block) block)
        (memory (input.weakDelegatesReachable + 2))
        input.weakDelegatesReachable block)
      (nodes ++ [block]) := by
  obtain ⟨lefts, left, isLast⟩ : ∃ lefts left,
      head input.weakDelegatesReachable :: nodes = lefts ++ [left] :=
    ⟨_, _, (List.dropLast_append_getLast (List.cons_ne_nil _ _)).symm⟩
  obtain ⟨linkedLeft, lastWord⟩ := chain.last_node isLast
  rw [lastWord]
  have nonzero := graph.sentinel
  have listApart := graph.sentinelApart block reached
  have headerBounds := headerWords_bounds input.memory block
  have notNode : block ∉ nodes := fun member =>
    fresh ((chain.members block).mp member).1
  -- The head and the nodes do not overlap each other, the tail or the block.
  have nodePlace (node : Nat) (member : node ∈ nodes) :
      Reached input node ∧ node ≠ block ∧
        (input.weakDelegatesReachable + 3 ≤ node ∨
          node + 3 ≤ input.weakDelegatesReachable) ∧
        (block + 3 ≤ node ∨ node + 3 ≤ block) := by
    have reachedNode := visitedReached node ((chain.members node).mp member).1
    have different : node ≠ block := fun same => notNode (same ▸ member)
    have sentinel := graph.sentinelApart node reachedNode
    have bounds := headerWords_bounds input.memory node
    have := graph.apart block node reached reachedNode different.symm
    exact ⟨reachedNode, different, by omega, by omega⟩
  have place (node : Nat) (member : node ∈ lefts ++ [left]) :
      (node + 1 = input.weakDelegatesReachable ∨
        input.weakDelegatesReachable + 3 ≤ node ∨
        node + 3 ≤ input.weakDelegatesReachable) ∧
      (block + 3 ≤ node ∨ node + 3 ≤ block ∨
        node + 1 = input.weakDelegatesReachable) := by
    rw [← isLast] at member
    rcases List.mem_cons.mp member with rfl | isNode
    · rw [head]
      omega
    · have := nodePlace node isNode
      omega
  have apartNodes : (head input.weakDelegatesReachable :: nodes).Pairwise
      fun first second => first + 1 ≠ second + 1 ∧ first + 2 ≠ second + 1 ∧
        first + 1 ≠ second + 2 := by
    refine List.pairwise_cons.mpr ⟨?_, ?_⟩
    · intro node isNode
      have := nodePlace node isNode
      rw [head]
      omega
    · refine chain.nodup.imp_of_mem ?_
      intro first second isFirst isSecond different
      have reachedFirst := (nodePlace first isFirst).1
      have reachedSecond := (nodePlace second isSecond).1
      have := graph.apart first second reachedFirst reachedSecond different
      have := headerWords_bounds input.memory first
      omega
  have leftApart (node : Nat) (member : node ∈ lefts) :
      node + 1 ≠ left + 1 ∧ node + 2 ≠ left + 1 := by
    rw [isLast] at apartNodes
    have := (List.pairwise_append.mp apartNodes).2.2 node member left
      List.mem_cons_self
    exact ⟨this.1, this.2.1⟩
  have leftPlace := place left (List.mem_append_right _ List.mem_cons_self)
  have other {address : Nat} (notId : address ≠ block)
      (notNext : address ≠ block + 1) (notPrev : address ≠ block + 2)
      (notTail : address ≠ input.weakDelegatesReachable + 2)
      (notBefore : address ≠ left + 1) :
      insertNode (clearData (markAlive memory block) block) left
        input.weakDelegatesReachable block address = memory address :=
    (insertNode_clearData_other _ _ notNext notPrev notTail notBefore).trans
      (markAlive_other memory block address notId)
  have edges : insertNode (clearData (markAlive memory block) block) left
        input.weakDelegatesReachable block (left + 1) = block ∧
      insertNode (clearData (markAlive memory block) block) left
        input.weakDelegatesReachable block (block + 2) = left ∧
      insertNode (clearData (markAlive memory block) block) left
        input.weakDelegatesReachable block (block + 1) =
          input.weakDelegatesReachable ∧
      insertNode (clearData (markAlive memory block) block) left
        input.weakDelegatesReachable block
          (input.weakDelegatesReachable + 2) = block := by
    simp (disch := omega) only [insertNode, setNext, setPrev,
      Function.update_of_ne, Function.update_self, and_self]
  generalize insertNode (clearData (markAlive memory block) block) left
    input.weakDelegatesReachable block = memory' at other edges
  refine ⟨?_, ?_, ?_, ?_, ?_⟩
  · rw [← List.cons_append, isLast, List.append_assoc, List.append_assoc]
    refine Linked.join (linkedLeft.congr ?_ ?_) ⟨edges.1, edges.2.1⟩
      (List.isChain_cons_cons.mpr
        ⟨⟨edges.2.2.1, edges.2.2.2⟩, List.isChain_singleton _⟩)
    · intro node member
      rw [List.dropLast_concat] at member
      have := place node (List.mem_append_left _ member)
      have := leftApart node member
      exact other (by omega) (by omega) (by omega) (by omega) (by omega)
    · intro node member
      have isNode : node ∈ nodes := by
        rw [← isLast] at member
        exact member
      have := nodePlace node isNode
      have notBefore : node + 2 ≠ left + 1 := by
        have inList : node ∈ lefts ++ [left] := by
          rw [← isLast]
          exact List.mem_cons_of_mem _ isNode
        rcases List.mem_append.mp inList with isLeft | isLeft
        · exact (leftApart node isLeft).2
        · have := List.mem_singleton.mp isLeft
          omega
      exact other (by omega) (by omega) (by omega) (by omega) notBefore
  · have first := chain.first
    rw [prev] at first ⊢
    rw [other, first]
    all_goals
      rw [head]
      omega
  · have last := chain.last
    rw [next, tail] at last ⊢
    rw [other, last]
    all_goals omega
  · refine List.nodup_append.mpr
      ⟨chain.nodup, List.pairwise_singleton _ _, ?_⟩
    intro node isNode other isOther
    rw [List.mem_singleton.mp isOther]
    exact fun same => notNode (same ▸ isNode)
  · intro node
    rw [List.mem_append, List.mem_singleton, chain.members]
    constructor
    · rintro (⟨isVisited, weak⟩ | rfl)
      · exact ⟨.inl isVisited, weak⟩
      · exact ⟨.inr rfl, isWeak⟩
    · rintro ⟨isVisited | isBlock, weak⟩
      · exact .inl ⟨isVisited, weak⟩
      · exact .inr isBlock

/-- Visiting a block that is not a weak delegate list leaves the list. -/
theorem visitOther
    (graph : GraphWellFormed input)
    (chain : WeakChain input visited memory nodes)
    (visitedReached : ∀ other, visited other → Reached input other)
    (reached : Reached input block)
    (notWeak : isWeakDelegateList input.memory block = false) :
    WeakChain input (fun other => visited other ∨ other = block)
      (markAlive memory block) nodes := by
  have listApart := graph.sentinelApart block reached
  have bounds := headerWords_bounds input.memory block
  have chain' : WeakChain input visited (markAlive memory block) nodes := by
    refine chain.congr graph ?_ ?_
    · intro offset bound
      exact markAlive_other memory block _ (by omega)
    · intro node member
      obtain ⟨isVisited, weak⟩ := (chain.members node).mp member
      have reachedNode := visitedReached node isVisited
      have different : node ≠ block := by
        rintro rfl
        rw [weak] at notWeak
        cases notWeak
      have := graph.apart node block reachedNode reached different
      have := headerWords_bounds input.memory node
      exact ⟨markAlive_other memory block _ (by omega),
        markAlive_other memory block _ (by omega)⟩
  refine ⟨chain'.linked, chain'.first, chain'.last, chain'.nodup, ?_⟩
  intro node
  rw [chain'.members]
  constructor
  · rintro ⟨isVisited, weak⟩
    exact ⟨.inl isVisited, weak⟩
  · rintro ⟨isVisited | rfl, weak⟩
    · exact ⟨isVisited, weak⟩
    · rw [weak] at notWeak
      cases notWeak

/-- An allocation leaves the list. -/
theorem allocate
    (graph : GraphWellFormed input)
    (chain : WeakChain input visited memory nodes)
    (marked : Marked input visited memory)
    (visitedReached : ∀ other, visited other → Reached input other)
    (allocates : Allocates ⟨memory, input.clusters⟩ memory') :
    WeakChain input visited memory' nodes := by
  refine chain.congr graph ?_ ?_
  · intro offset bound
    exact (allocates.kept _ (marked.sentinel_outside graph bound).1).1
  · intro node member
    have reached := visitedReached node ((chain.members node).mp member).1
    exact ⟨(allocates.kept _ (marked.wordInUse graph reached (by decide))).1,
      (allocates.kept _ (marked.wordInUse graph reached (by decide))).1⟩

end WeakChain

/-! ## A list that is linked again -/

/-- The links from the tail back stay within weak delegate lists. -/
def WeakCycle (input : MarkInput) (memory : Memory) : Prop :=
  ∃ nodes : Nat → Prop,
    nodes (prev memory (tail input.weakDelegatesReachable)) ∧
    ∀ node, nodes node →
      Reached input node ∧ isWeakDelegateList input.memory node = true ∧
        nodes (prev memory node)

section Again

variable
  {input : MarkInput}
  {visited : Nat → Prop}
  {memory : Memory}
  {nodes : List Nat}
  {block : Nat}

/-- The links back after a weak delegate list was linked at the back. -/
theorem Marked.prev_link
    (marked : Marked input visited memory)
    (graph : GraphWellFormed input)
    (reached : Reached input block)
    {memory' : Memory}
    (linked : memory' = insertNode
      (clearData (HeapBlock.markAlive memory block) block)
      (memory (input.weakDelegatesReachable + 2))
      input.weakDelegatesReachable block) :
    prev memory' (tail input.weakDelegatesReachable) = block ∧
    prev memory' block = prev memory (tail input.weakDelegatesReachable) ∧
    ∀ node, Reached input node → node ≠ block →
      prev memory' node = prev memory node := by
  have listApart := graph.sentinelApart block reached
  have bounds := headerWords_bounds input.memory block
  have listNonzero := graph.sentinel
  -- The successor of the last node is not a link back of any node.
  have notBefore {node : Nat}
      (isNode : node = input.weakDelegatesReachable ∨ Reached input node) :
      node + 2 ≠ memory (input.weakDelegatesReachable + 2) + 1 := by
    rcases marked.last with isHead | ⟨reachedBefore, _⟩
    · rw [isHead, head]
      rcases isNode with rfl | reachedNode
      · omega
      · have := graph.sentinelApart node reachedNode
        have := headerWords_bounds input.memory node
        omega
    · have beforeApart := graph.sentinelApart _ reachedBefore
      have beforeBounds := headerWords_bounds input.memory
        (memory (input.weakDelegatesReachable + 2))
      rcases isNode with rfl | reachedNode
      · omega
      · by_cases same : node = memory (input.weakDelegatesReachable + 2)
        · omega
        · have := graph.apart _ _ reachedBefore reachedNode (Ne.symm same)
          omega
  have listBefore := notBefore (.inl rfl)
  have blockBefore := notBefore (.inr reached)
  subst linked
  refine ⟨?_, ?_, ?_⟩
  · simp (disch := omega) only [prev, tail, insertNode, setNext, setPrev,
      Function.update_of_ne, Function.update_self]
  · simp (disch := omega) only [prev, tail, insertNode, setNext, setPrev,
      Function.update_of_ne, Function.update_self]
  · intro node reachedNode different
    have nodeApart := graph.apart node block reachedNode reached different
    have nodeBounds := headerWords_bounds input.memory node
    have sentinel := graph.sentinelApart node reachedNode
    have := notBefore (.inr reachedNode)
    rw [prev, prev, insertNode_clearData_other _ _ (by omega) (by omega)
      (by omega) (by omega), markAlive_other memory block _ (by omega)]

/-- A list that is linked already and linked again at the back leaves a cycle
behind. -/
theorem WeakChain.again
    (graph : GraphWellFormed input)
    (chain : WeakChain input visited memory nodes)
    (marked : Marked input visited memory)
    (visitedReached : ∀ other, visited other → Reached input other)
    (member : block ∈ nodes) :
    WeakCycle input
      (insertNode (clearData (markAlive memory block) block)
        (memory (input.weakDelegatesReachable + 2))
        input.weakDelegatesReachable block) := by
  have isNode {node : Nat} (member : node ∈ nodes) :
      Reached input node ∧ isWeakDelegateList input.memory node = true := by
    obtain ⟨isVisited, isWeak⟩ := (chain.members node).mp member
    exact ⟨visitedReached node isVisited, isWeak⟩
  obtain ⟨atTail, atBlock, others⟩ :=
    marked.prev_link graph (isNode member).1 rfl
  obtain ⟨lefts, rights, split⟩ := List.append_of_mem member
  have linked := chain.linked
  have linked : Linked (next memory) (prev memory)
      ((head input.weakDelegatesReachable :: lefts) ++
        block :: (rights ++ [tail input.weakDelegatesReachable])) := by
    rw [split] at linked
    simpa using linked
  have back {node : Nat}
      (behind : node ∈ rights ++ [tail input.weakDelegatesReachable]) :
      prev memory node ∈ block :: rights := by
    have inside := linked.from_.prev_mem behind
    rwa [← List.cons_append, List.dropLast_concat] at inside
  refine ⟨(· ∈ block :: rights), ?_, ?_⟩
  · rw [atTail]
    exact List.mem_cons_self
  · intro node inside
    have member' : node ∈ nodes := by
      rw [split]
      exact List.mem_append_right _ inside
    refine ⟨(isNode member').1, (isNode member').2, ?_⟩
    rcases List.mem_cons.mp inside with rfl | behind
    · rw [atBlock]
      exact back (List.mem_append_right _ List.mem_cons_self)
    · have different : node ≠ block := by
        have nodup := chain.nodup
        rw [split] at nodup
        rintro rfl
        exact (List.nodup_cons.mp (List.nodup_append.mp nodup).2.1).1 behind
      rw [others node (isNode member').1 different]
      exact back (List.mem_append_left _ behind)

namespace WeakCycle

/-- Linking another list at the back, or the same one again, keeps the cycle. -/
theorem link
    (graph : GraphWellFormed input)
    (cycle : WeakCycle input memory)
    (marked : Marked input visited memory)
    (reached : Reached input block)
    (isWeak : isWeakDelegateList input.memory block = true) :
    WeakCycle input
      (insertNode (clearData (markAlive memory block) block)
        (memory (input.weakDelegatesReachable + 2))
        input.weakDelegatesReachable block) := by
  obtain ⟨nodes, last, back⟩ := cycle
  obtain ⟨atTail, atBlock, others⟩ := marked.prev_link graph reached rfl
  refine ⟨fun node => node = block ∨ nodes node, .inl atTail, ?_⟩
  intro node isNode
  by_cases same : node = block
  · subst same
    rw [atBlock]
    exact ⟨reached, isWeak, .inr last⟩
  · obtain ⟨reachedNode, weakNode, before⟩ := back node (isNode.resolve_left same)
    rw [others node reachedNode same]
    exact ⟨reachedNode, weakNode, .inr before⟩

/-- The cycle is in the links back. -/
theorem congr
    (cycle : WeakCycle input memory)
    {memory' : Memory}
    (atTail : prev memory' (tail input.weakDelegatesReachable) =
      prev memory (tail input.weakDelegatesReachable))
    (others : ∀ node, Reached input node →
      isWeakDelegateList input.memory node = true →
        prev memory' node = prev memory node) :
    WeakCycle input memory' := by
  obtain ⟨nodes, last, back⟩ := cycle
  refine ⟨nodes, by rwa [atTail], ?_⟩
  intro node isNode
  obtain ⟨reached, isWeak, before⟩ := back node isNode
  rw [others node reached isWeak]
  exact ⟨reached, isWeak, before⟩

/-- Marking a block that is not a weak delegate list keeps the cycle. -/
theorem visitOther
    (graph : GraphWellFormed input)
    (cycle : WeakCycle input memory)
    (reached : Reached input block)
    (notWeak : isWeakDelegateList input.memory block = false) :
    WeakCycle input (markAlive memory block) := by
  have listApart := graph.sentinelApart block reached
  have bounds := headerWords_bounds input.memory block
  refine cycle.congr ?_ ?_
  · exact markAlive_other memory block _ (by rw [tail]; omega)
  · intro node reachedNode isWeak
    have different : node ≠ block := by
      rintro rfl
      rw [isWeak] at notWeak
      cases notWeak
    have := graph.apart node block reachedNode reached different
    have := headerWords_bounds input.memory node
    exact markAlive_other memory block _ (by omega)

/-- An allocation keeps the cycle. -/
theorem allocate
    (graph : GraphWellFormed input)
    (cycle : WeakCycle input memory)
    (marked : Marked input visited memory)
    {memory' : Memory}
    (allocates : Allocates ⟨memory, input.clusters⟩ memory') :
    WeakCycle input memory' := by
  refine cycle.congr ?_ ?_
  · exact (allocates.kept _ (marked.sentinel_outside graph (by decide)).1).1
  · intro node reached _
    exact (allocates.kept _ (marked.wordInUse graph reached (by decide))).1

end WeakCycle

end Again

/-! ## Runs of `Mark` -/

section Runs

variable
  {input : MarkInput}
  {visited visited' handed : Nat → Prop}
  {state later : MarkState}
  {event : CollectEvent}
  {nodes : List Nat}

/-- A step that visits no weak delegate list again keeps the list; one that does
leaves a cycle. -/
theorem WeakChain.step
    (graph : GraphWellFormed input)
    (holds : MarkInvariant input visited handed state)
    (chain : WeakChain input visited state.collector.memory nodes)
    (effect : Effect input visited state event later visited') :
    (StepVisitsOnce state event ∧
      ∃ nodes', WeakChain input visited' later.collector.memory nodes') ∨
    ¬ StepVisitsOnce state event ∧
      WeakCycle input later.collector.memory := by
  cases effect with
  | rest visitsNone same =>
      rw [same]
      exact .inl ⟨fun block visits => absurd visits (visitsNone block),
        nodes, chain⟩
  | visit visits reached source memoryIs =>
      rename_i block memory
      have marked := holds.marked_memory
      have visitedReached := holds.scanned.visitedReached
      obtain ⟨marked', chain'⟩ : Marked input visited memory ∧
          WeakChain input visited memory nodes := by
        rcases source with rfl | allocated
        · exact ⟨marked, chain⟩
        · exact ⟨marked.allocate graph allocated,
            chain.allocate graph marked visitedReached allocated⟩
      have once : StepVisitsOnce state event ↔
          (isWeakDelegateList input.memory block = true →
            isAlive state.collector.memory block = false) := by
        rw [← marked.isWeakDelegateList reached]
        constructor
        · exact fun once => once block visits
        · intro once other visitsOther
          rw [visitsOther.unique visits]
          exact once
      rw [once, memoryIs, (marked'.visit_memory graph reached).2]
      by_cases isWeak : isWeakDelegateList input.memory block = true
      · rw [if_pos isWeak]
        have alive_iff : isAlive state.collector.memory block = true ↔
            visited block := by
          rw [marked.alive block reached, graph.unmarked block
            (graph.owners block reached (.inr isWeak))]
          simp
        by_cases isVisited : visited block
        · right
          refine ⟨fun dead => ?_, chain'.again graph marked' visitedReached
            ((chain'.members block).mpr ⟨isVisited, isWeak⟩)⟩
          rw [alive_iff.mpr isVisited] at dead
          exact Bool.noConfusion (dead isWeak)
        · left
          refine ⟨fun _ => ?_, _, chain'.append graph visitedReached reached
            isWeak isVisited⟩
          rw [← Bool.not_eq_true, alive_iff]
          exact isVisited
      · rw [if_neg isWeak]
        exact .inl ⟨fun weak => absurd weak isWeak, _,
          chain'.visitOther graph visitedReached reached (by simpa using isWeak)⟩

/-- Every step keeps a cycle. -/
theorem WeakCycle.step
    (graph : GraphWellFormed input)
    (holds : MarkInvariant input visited handed state)
    (cycle : WeakCycle input state.collector.memory)
    (effect : Effect input visited state event later visited') :
    WeakCycle input later.collector.memory := by
  cases effect with
  | rest visitsNone same =>
      rw [same]
      exact cycle
  | visit visits reached source memoryIs =>
      rename_i block memory
      have marked := holds.marked_memory
      obtain ⟨marked', cycle'⟩ : Marked input visited memory ∧
          WeakCycle input memory := by
        rcases source with rfl | allocated
        · exact ⟨marked, cycle⟩
        · exact ⟨marked.allocate graph allocated,
            cycle.allocate graph marked allocated⟩
      rw [memoryIs, (marked'.visit_memory graph reached).2]
      by_cases isWeak : isWeakDelegateList input.memory block = true
      · rw [if_pos isWeak]
        exact cycle'.link graph marked' reached isWeak
      · rw [if_neg isWeak]
        exact cycle'.visitOther graph reached (by simpa using isWeak)

/-- After a run whose pushes find room, the weak delegate lists that were
visited are linked, or one of them was visited again and a cycle is left. -/
theorem CollectRun.weakDelegates
    (graph : GraphWellFormed input)
    {taken : List (MarkState × CollectEvent)}
    (run : CollectRun input taken state)
    (room : ∀ entry ∈ taken, StepFindsRoom entry.1 entry.2) :
    ∃ visited handed, MarkInvariant input visited handed state ∧
      ((∀ entry ∈ taken, StepVisitsOnce entry.1 entry.2) ∧
        (∃ nodes, WeakChain input visited state.collector.memory nodes) ∨
      (¬ ∀ entry ∈ taken, StepVisitsOnce entry.1 entry.2) ∧
        WeakCycle input state.collector.memory) := by
  induction run with
  | start begins =>
      refine ⟨_, _, begins.invariant graph, .inl ⟨by simp, [], ?_⟩⟩
      rw [begins.1]
      exact WeakChain.start graph
  | next run steps inductionHypothesis =>
      rename_i taken state later event
      rw [List.forall_mem_append, List.forall_mem_singleton] at room
      obtain ⟨visited, handed, holds, list⟩ := inductionHypothesis room.1
      obtain ⟨visited', handed', holds', effect⟩ :=
        holds.step graph room.2 steps
      refine ⟨visited', handed', holds', ?_⟩
      rw [List.forall_mem_append, List.forall_mem_singleton]
      rcases list with ⟨once, nodes, chain⟩ | ⟨again, cycle⟩
      · rcases chain.step graph holds effect with
          ⟨onceMore, chain'⟩ | ⟨again, cycle'⟩
        · exact .inl ⟨⟨once, onceMore⟩, chain'⟩
        · exact .inr ⟨fun both => again both.2, cycle'⟩
      · exact .inr ⟨fun both => again both.1, cycle.step graph holds effect⟩

end Runs

end GarbageCollector

end NanoClr
