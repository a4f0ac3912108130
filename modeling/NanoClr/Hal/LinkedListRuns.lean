import NanoClr.Hal.LinkIntegrity

/-!
# Runs of calls on doubly linked lists

What each call does to the lists, and that they are intact after every run.
-/

namespace NanoClr

namespace Hal

open HAL_DblLinkedList

namespace ListFamily

/-! ## The calls on the lists -/

section Calls

variable
  {family : ListFamily}
  {memory : Nat → Nat}
  {contents : Nat → List Nat}
  {except node nodeNew list other first second : Nat}
  {before after front back : List Nat}

theorem Holds.initializeNode
    (holds : family.Holds node memory contents)
    (isNode : family.IsNode node)
    (away : ∀ list, family.IsList list → node ∉ contents list) :
    family.Holds 0 (InitializeNode family.offset memory node) contents := by
  have isRelink : InitializeNode family.offset memory node =
      family.relink memory node node 0 0 := rfl
  rw [isRelink]
  refine { holds with
    linked := ?_
    null := fun isList => (null_relink (.inl isNode) (.inl isNode) isList).trans
      (holds.null isList)
    free := ?_ }
  · intro list isList
    apply linked_relink_away (.inl isNode) (.inl isNode) isList
      (holds.nodes isList) _ _ (holds.linked isList)
    · rw [List.mem_cons, not_or]
      refine ⟨?_, away list isList⟩
      rintro rfl
      exact head_notNode isList isNode
    · rw [List.mem_append, List.mem_singleton, not_or]
      refine ⟨away list isList, ?_⟩
      rintro rfl
      exact tail_notNode isList isNode
  · intro other isOther _ otherAway
    rw [next_relink (.inl isNode) (.inl isOther),
      prev_relink (.inl isNode) (.inl isOther)]
    by_cases same : other = node
    · rw [same, Function.update_self, Function.update_self]
      exact ⟨rfl, rfl⟩
    · rw [Function.update_of_ne same, Function.update_of_ne same]
      exact holds.free isOther same otherAway

theorem Holds.away_removed
    (holds : family.Holds except memory contents)
    (isList : family.IsList list) :
    node ∉ removed node contents list :=
  (holds.nodup isList).not_mem_erase

theorem Holds.unlink
    (holds : family.Holds 0 memory contents)
    (isNode : family.IsNode node) :
    family.Holds 0 (Unlink family.offset memory node)
      (removed node contents) :=
  (holds.removeFromList isNode).initializeNode isNode
    fun _ isList => holds.away_removed isList

theorem Place.neighbours
    (place : family.Place contents list first second before after front back)
    (holds : family.Holds except memory contents) :
    Next family.offset memory first = second ∧
      Prev family.offset memory second = first :=
  (place.linked holds).pair

/-- Every node of a list, and its tail, has a place in front of it. -/
theorem exists_placeBefore
    (isList : family.IsList list)
    (member : second ∈ contents list ++ [Tail family.offset list]) :
    ∃ before after front first back,
      family.Place contents list first second before after front back := by
  rcases List.mem_append.mp member with inside | isTail
  · obtain ⟨before, rest, isSplit⟩ := List.append_of_mem inside
    obtain ⟨front, first, isFront⟩ := exists_front family list before
    exact ⟨before, second :: rest, front, first, _, isList, isSplit, isFront,
      rfl⟩
  · rw [List.mem_singleton.mp isTail]
    obtain ⟨front, first, isFront⟩ := exists_front family list (contents list)
    exact ⟨contents list, [], front, first, [], isList,
      (List.append_nil _).symm, isFront, rfl⟩

/-- Every node of a list, and its head, has a place behind it. -/
theorem exists_placeAfter
    (isList : family.IsList list)
    (member : first ∈ Head family.offset list :: contents list) :
    ∃ before after front second back,
      family.Place contents list first second before after front back := by
  rcases List.mem_cons.mp member with rfl | inside
  · obtain ⟨second, back, isBack⟩ := exists_back family list (contents list)
    exact ⟨[], contents list, [], second, back, isList, rfl, rfl, isBack⟩
  · obtain ⟨before, rest, isSplit⟩ := List.append_of_mem inside
    obtain ⟨second, back, isBack⟩ := exists_back family list rest
    exact ⟨before ++ [first], rest, Head family.offset list :: before, second,
      back, isList, by rw [isSplit, List.append_cons], rfl, isBack⟩

theorem Holds.insertBeforeNode
    (holds : family.Holds 0 memory contents)
    (isNode : family.IsNode nodeNew)
    (different : second ≠ nodeNew)
    (place : family.Place (removed nodeNew contents) list first second before
      after front back) :
    family.Holds 0 (InsertBeforeNode family.offset memory second nodeNew)
      (Function.update (removed nodeNew contents) list
        (before ++ nodeNew :: after)) := by
  have without := holds.removeFromList isNode
  have inserts : InsertBeforeNode family.offset memory second nodeNew =
      Insert family.offset (RemoveFromList family.offset memory nodeNew) first
        second nodeNew := by
    rw [InsertBeforeNode, if_pos ⟨target_nonzero
      (place.isTarget (without.nodes place.isList)),
      family.nodeNonzero isNode, different⟩]
    simp only
    rw [(place.neighbours without).2]
  rw [inserts]
  exact without.insert isNode (fun _ isList => holds.away_removed isList) place

theorem Holds.insertAfterNode
    (holds : family.Holds 0 memory contents)
    (isNode : family.IsNode nodeNew)
    (different : first ≠ nodeNew)
    (place : family.Place (removed nodeNew contents) list first second before
      after front back) :
    family.Holds 0 (InsertAfterNode family.offset memory first nodeNew)
      (Function.update (removed nodeNew contents) list
        (before ++ nodeNew :: after)) := by
  have without := holds.removeFromList isNode
  have inserts : InsertAfterNode family.offset memory first nodeNew =
      Insert family.offset (RemoveFromList family.offset memory nodeNew) first
        second nodeNew := by
    rw [InsertAfterNode, if_pos ⟨source_nonzero
      (place.isSource (without.nodes place.isList)),
      family.nodeNonzero isNode, different⟩]
    simp only
    rw [(place.neighbours without).1]
  rw [inserts]
  exact without.insert isNode (fun _ isList => holds.away_removed isList) place

/-! ## The ends of a list -/

theorem next_head (isList : family.IsList list) :
    Next family.offset memory (Head family.offset list) = memory list := by
  rw [Next, head_add isList]

theorem prev_head (isList : family.IsList list) :
    Prev family.offset memory (Head family.offset list) =
      memory (list + 1) := by
  rw [Prev, head_add isList]

theorem next_tail (isList : family.IsList list) :
    Next family.offset memory (Tail family.offset list) =
      memory (list + 1) := by
  rw [Next, tail_add isList]

theorem prev_tail (isList : family.IsList list) :
    Prev family.offset memory (Tail family.offset list) =
      memory (list + 2) := by
  rw [Prev, tail_add isList]

theorem Holds.next_nonzero
    (holds : family.Holds except memory contents)
    (isList : family.IsList list)
    (member : node ∈ contents list) :
    Next family.offset memory node ≠ 0 := by
  have inside := (holds.linked isList).next_mem
    (by
      rw [← chain, chain_dropLast]
      exact List.mem_cons_of_mem _ member)
  exact target_nonzero (isTarget_of_mem isList (holds.nodes isList) inside)

theorem Holds.prev_nonzero
    (holds : family.Holds except memory contents)
    (isList : family.IsList list)
    (member : node ∈ contents list) :
    Prev family.offset memory node ≠ 0 := by
  have inside := (holds.linked isList).prev_mem
    (List.mem_append_left _ member)
  rw [← chain, chain_dropLast] at inside
  exact source_nonzero (isSource_of_mem isList (holds.nodes isList) inside)

theorem Holds.firstNode
    (holds : family.Holds except memory contents)
    (isList : family.IsList list) :
    (contents list ++ [Tail family.offset list]).head? =
      some (FirstNode memory list) := by
  obtain ⟨second, back, isBack⟩ := exists_back family list (contents list)
  have place : family.Place contents list (Head family.offset list) second []
      (contents list) [] back := ⟨isList, rfl, rfl, isBack⟩
  have isNext := (place.neighbours holds).1
  rw [next_head isList] at isNext
  rw [isBack, List.head?_cons, FirstNode, isNext]

theorem Holds.lastNode
    (holds : family.Holds except memory contents)
    (isList : family.IsList list) :
    (Head family.offset list :: contents list).getLast? =
      some (LastNode memory list) := by
  obtain ⟨front, first, isFront⟩ := exists_front family list (contents list)
  have place : family.Place contents list first (Tail family.offset list)
      (contents list) [] front [] :=
    ⟨isList, (List.append_nil _).symm, isFront, rfl⟩
  have isPrev := (place.neighbours holds).2
  rw [prev_tail isList] at isPrev
  rw [isFront, List.getLast?_concat, LastNode, isPrev]

theorem Holds.firstValidNode
    (holds : family.Holds except memory contents)
    (isList : family.IsList list) :
    FirstValidNode family.offset memory list =
      (contents list).head?.getD 0 := by
  have isFirst := holds.firstNode isList
  cases isContents : contents list with
  | nil =>
      rw [isContents] at isFirst
      have isTail : Tail family.offset list = FirstNode memory list :=
        Option.some_inj.mp isFirst
      rw [FirstValidNode, ← isTail]
      simp only [next_tail isList, holds.null isList]
      rfl
  | cons node rest =>
      rw [isContents] at isFirst
      have isNode : node = FirstNode memory list := Option.some_inj.mp isFirst
      rw [FirstValidNode, ← isNode]
      exact if_pos (holds.next_nonzero isList
        (isContents ▸ List.mem_cons_self))

theorem Holds.lastValidNode
    (holds : family.Holds except memory contents)
    (isList : family.IsList list) :
    LastValidNode family.offset memory list =
      (contents list).getLast?.getD 0 := by
  have isLast := holds.lastNode isList
  rcases List.eq_nil_or_concat' (contents list) with
    isContents | ⟨rest, node, isContents⟩
  · rw [isContents] at isLast
    have isHead : Head family.offset list = LastNode memory list :=
      Option.some_inj.mp isLast
    rw [isContents, LastValidNode, ← isHead]
    simp only [prev_head isList, holds.null isList]
    rfl
  · rw [isContents, ← List.cons_append, List.getLast?_concat] at isLast
    have isNode : node = LastNode memory list := Option.some_inj.mp isLast
    have member : node ∈ contents list := by
      rw [isContents]
      exact List.mem_append_right _ List.mem_cons_self
    rw [isContents, List.getLast?_concat, LastValidNode, ← isNode]
    exact if_pos (holds.prev_nonzero isList member)

end Calls

/-! ## Calls that are allowed, and what they do -/

section Runs

variable (family : ListFamily)

/-- Every list and every node is as its initialization leaves it. -/
structure Initialized (memory : Nat → Nat) : Prop where
  lists : ∀ {list}, family.IsList list →
    Initialize family.offset memory list = memory
  nodes : ∀ {node}, family.IsNode node →
    InitializeNode family.offset memory node = memory

/-- A traversal of the list comes by a node. -/
def OnList (memory : Nat → Nat) (list node : Nat) : Prop :=
  ∃ rounds nodes last,
    followLinks (Next family.offset memory) rounds (FirstNode memory list) =
      some (nodes, last) ∧ node ∈ nodes

/-- The node that is inserted is one of the family, and the given node is on a
list, or it is the sentinel that has a neighbour on that side. -/
def Allowed (memory : Nat → Nat) : ListCall → Prop
  | .InsertBeforeNode node nodeNew => family.IsNode nodeNew ∧
      ∃ list, family.IsList list ∧
        (family.OnList memory list node ∨ node = Tail family.offset list)
  | .InsertAfterNode node nodeNew => family.IsNode nodeNew ∧
      ∃ list, family.IsList list ∧
        (family.OnList memory list node ∨ node = Head family.offset list)
  | .LinkAtFront list node => family.IsList list ∧ family.IsNode node
  | .LinkAtBack list node => family.IsList list ∧ family.IsNode node
  | .Unlink node => family.IsNode node
  | .ExtractFirstNode list => family.IsList list
  | .ExtractLastNode list => family.IsList list

/-- An allowed call leads from one memory to another. -/
def Step (memory : Nat → Nat) (call : ListCall) (later : Nat → Nat) : Prop :=
  family.Allowed memory call ∧ run family.offset memory call = later

/-- Both traversals of every list visit the same nodes, in opposite order, and
end at the sentinels, and no node is visited twice. -/
structure Intact (memory : Nat → Nat) (contents : Nat → List Nat) : Prop where
  forward : ∀ {list}, family.IsList list → ∃ rounds,
    followLinks (Next family.offset memory) rounds (FirstNode memory list) =
      some (contents list, Tail family.offset list)
  backward : ∀ {list}, family.IsList list → ∃ rounds,
    followLinks (Prev family.offset memory) rounds (LastNode memory list) =
      some ((contents list).reverse, Head family.offset list)
  nodup : ∀ {list}, family.IsList list → (contents list).Nodup
  disjoint : ∀ {list other node}, family.IsList list → family.IsList other →
    node ∈ contents list → node ∈ contents other → list = other

/-- All nodes but one keep their list and their order. -/
def OthersStay (node : Nat) (contents contents' : Nat → List Nat) : Prop :=
  ∀ list, family.IsList list →
    (contents' list).filter (· ≠ node) = (contents list).filter (· ≠ node)

/-- What a call does to the lists. -/
def Moves (memory : Nat → Nat) (contents contents' : Nat → List Nat) :
    ListCall → Prop
  | .InsertBeforeNode node nodeNew =>
      if node = nodeNew then
        ∀ list, family.IsList list → contents' list = contents list
      else
        family.OthersStay nodeNew contents contents' ∧
          ∃ list before after, family.IsList list ∧
            contents' list = before ++ nodeNew :: after ∧
            (after ++ [Tail family.offset list]).head? = some node
  | .InsertAfterNode node nodeNew =>
      if node = nodeNew then
        ∀ list, family.IsList list → contents' list = contents list
      else
        family.OthersStay nodeNew contents contents' ∧
          ∃ list before after, family.IsList list ∧
            contents' list = before ++ nodeNew :: after ∧
            (Head family.offset list :: before).getLast? = some node
  | .LinkAtFront list node =>
      family.OthersStay node contents contents' ∧
        ∃ after, contents' list = node :: after
  | .LinkAtBack list node =>
      family.OthersStay node contents contents' ∧
        ∃ before, contents' list = before ++ [node]
  | .Unlink node =>
      family.OthersStay node contents contents' ∧
        ∀ list, family.IsList list → node ∉ contents' list
  | .ExtractFirstNode list =>
      (ExtractFirstNode family.offset memory list).1 =
          (contents list).head?.getD 0 ∧
        ∀ other, family.IsList other → contents' other =
          if other = list then (contents list).tail else contents other
  | .ExtractLastNode list =>
      (ExtractLastNode family.offset memory list).1 =
          (contents list).getLast?.getD 0 ∧
        ∀ other, family.IsList other → contents' other =
          if other = list then (contents list).dropLast else contents other

end Runs

/-! ## Traversals -/

section Traversals

variable
  {family : ListFamily}
  {memory : Nat → Nat}
  {contents : Nat → List Nat}
  {except node list : Nat}

theorem followLinks_unique
    {link : Nat → Nat}
    {rounds rounds' ptr : Nat}
    {result result' : List Nat × Nat}
    (ends : followLinks link rounds ptr = some result)
    (ends' : followLinks link rounds' ptr = some result') :
    result = result' := by
  induction rounds generalizing rounds' ptr result result' with
  | zero => cases ends
  | succ rounds inductionHypothesis =>
      cases rounds' with
      | zero => cases ends'
      | succ rounds' =>
          rw [followLinks] at ends ends'
          by_cases last : link ptr = 0
          · rw [if_pos last] at ends ends'
            exact Option.some_inj.mp (ends.symm.trans ends')
          · rw [if_neg last] at ends ends'
            obtain ⟨rest, isRest, rfl⟩ := Option.map_eq_some_iff.mp ends
            obtain ⟨rest', isRest', rfl⟩ := Option.map_eq_some_iff.mp ends'
            rw [inductionHypothesis isRest isRest']

theorem followLinks_chain
    {link : Nat → Nat}
    {nodes : List Nat}
    {first last : Nat}
    (chain : (nodes ++ [last]).IsChain fun left right => link left = right)
    (starts : (nodes ++ [last]).head? = some first)
    (nonzero : ∀ node ∈ nodes, link node ≠ 0)
    (ends : link last = 0) :
    followLinks link (nodes.length + 1) first = some (nodes, last) := by
  induction nodes generalizing first with
  | nil =>
      rw [← Option.some_inj.mp starts, followLinks]
      exact if_pos ends
  | cons node nodes inductionHypothesis =>
      rw [List.forall_mem_cons] at nonzero
      have isNode : node = first := Option.some_inj.mp starts
      obtain ⟨second, rest, isRest⟩ := List.exists_cons_of_ne_nil
        (List.append_ne_nil_of_right_ne_nil nodes (List.cons_ne_nil last []))
      rw [List.cons_append, isRest, List.isChain_cons_cons, ← isRest] at chain
      have later := inductionHypothesis chain.2
        (by rw [isRest, List.head?_cons]) nonzero.2
      rw [← isNode, List.length_cons, followLinks, if_neg nonzero.1, chain.1,
        later]
      rfl

theorem Holds.intact (holds : family.Holds except memory contents) :
    family.Intact memory contents where
  forward isList := by
    refine ⟨_, followLinks_chain ?_ (holds.firstNode isList)
      (fun _ member => holds.next_nonzero isList member) ?_⟩
    · exact (holds.linked isList).tail.imp fun _ _ edge => edge.1
    · rw [next_tail isList, holds.null isList]
  backward := by
    intro list isList
    have linked := holds.linked isList
    rw [chain, ← List.cons_append] at linked
    have backwards : ((contents list).reverse ++
        [Head family.offset list]).IsChain
          fun left right => Prev family.offset memory left = right := by
      rw [← List.reverse_cons, List.isChain_reverse]
      exact linked.left_of_append.imp fun _ _ edge => edge.2
    refine ⟨_, followLinks_chain backwards ?_ ?_ ?_⟩
    · rw [← List.reverse_cons, List.head?_reverse]
      exact holds.lastNode isList
    · intro node member
      exact holds.prev_nonzero isList (List.mem_reverse.mp member)
    · rw [prev_head isList, holds.null isList]
  nodup := holds.nodup
  disjoint := holds.disjoint

theorem Holds.onList_iff
    (holds : family.Holds except memory contents)
    (isList : family.IsList list) :
    family.OnList memory list node ↔ node ∈ contents list := by
  obtain ⟨rounds, ends⟩ := holds.intact.forward isList
  constructor
  · rintro ⟨_, _, _, ends', member⟩
    have same := followLinks_unique ends' ends
    rw [Prod.mk.injEq] at same
    exact same.1 ▸ member
  · intro member
    exact ⟨rounds, _, _, ends, member⟩

end Traversals

/-! ## Every run -/

section Integrity

variable
  {family : ListFamily}
  {memory : Nat → Nat}
  {contents : Nat → List Nat}
  {node nodeNew list first second : Nat}
  {before after front back : List Nat}

theorem Initialized.holds (initialized : family.Initialized memory) :
    family.Holds 0 memory fun _ => [] where
  nodes _ _ member := absurd member List.not_mem_nil
  linked := by
    intro list isList
    have isFirst := congrFun (initialized.lists isList) list
    have isLast := congrFun (initialized.lists isList) (list + 2)
    rw [Initialize, Function.update_of_ne (by omega),
      Function.update_of_ne (by omega), Function.update_self] at isFirst
    rw [Initialize, Function.update_self] at isLast
    apply List.isChain_pair.mpr
    rw [LinkedPair, next_head isList, prev_tail isList]
    exact ⟨isFirst.symm, isLast.symm⟩
  null := by
    intro list isList
    have isNull := congrFun (initialized.lists isList) (list + 1)
    rw [Initialize, Function.update_of_ne (by omega),
      Function.update_self] at isNull
    exact isNull.symm
  nodup _ := List.nodup_nil
  disjoint _ _ member := absurd member List.not_mem_nil
  free := by
    intro node isNode _ _
    have isNext := congrFun (initialized.nodes isNode) (node + family.offset)
    have isPrev :=
      congrFun (initialized.nodes isNode) (node + family.offset + 1)
    rw [InitializeNode, SetPrev, Function.update_of_ne (by omega), SetNext,
      Function.update_self] at isNext
    rw [InitializeNode, SetPrev, Function.update_self] at isPrev
    exact ⟨isNext.symm, isPrev.symm⟩

theorem Holds.filter_removed
    (holds : family.Holds 0 memory contents)
    (isList : family.IsList list) :
    (removed node contents list).filter (· ≠ node) =
      (contents list).filter (· ≠ node) := by
  rw [removed, (holds.nodup isList).erase_eq_filter, List.filter_filter]
  congr 1
  funext other
  simp [bne]

theorem Holds.othersStay_removed (holds : family.Holds 0 memory contents) :
    family.OthersStay node contents (removed node contents) :=
  fun _ isList => holds.filter_removed isList

theorem Holds.othersStay_inserted
    (holds : family.Holds 0 memory contents)
    (place : family.Place (removed node contents) list first second before after
      front back) :
    family.OthersStay node contents
      (Function.update (removed node contents) list
        (before ++ node :: after)) := by
  intro other isOther
  rw [← holds.filter_removed isOther]
  by_cases same : other = list
  · rw [same, Function.update_self, place.isSplit, List.filter_append,
      List.filter_append, List.filter_cons_of_neg (by simp)]
  · rw [Function.update_of_ne same]

theorem Holds.step_insertBefore
    (holds : family.Holds 0 memory contents)
    (isNode : family.IsNode nodeNew)
    (isList : family.IsList list)
    (different : node ≠ nodeNew)
    (member : node ∈ contents list ++ [Tail family.offset list]) :
    ∃ before after,
      family.Holds 0 (InsertBeforeNode family.offset memory node nodeNew)
        (Function.update (removed nodeNew contents) list
          (before ++ nodeNew :: after)) ∧
      family.OthersStay nodeNew contents
        (Function.update (removed nodeNew contents) list
          (before ++ nodeNew :: after)) ∧
      removed nodeNew contents list = before ++ after ∧
      (after ++ [Tail family.offset list]).head? = some node := by
  have stays : node ∈ removed nodeNew contents list ++
      [Tail family.offset list] := by
    rw [List.mem_append] at member ⊢
    exact member.imp_left (List.mem_erase_of_ne different).mpr
  obtain ⟨before, after, front, first, back, place⟩ :=
    exists_placeBefore isList stays
  refine ⟨before, after, holds.insertBeforeNode isNode different place,
    holds.othersStay_inserted place, place.isSplit, ?_⟩
  rw [place.isBack, List.head?_cons]

theorem Holds.step_insertAfter
    (holds : family.Holds 0 memory contents)
    (isNode : family.IsNode nodeNew)
    (isList : family.IsList list)
    (different : node ≠ nodeNew)
    (member : node ∈ Head family.offset list :: contents list) :
    ∃ before after,
      family.Holds 0 (InsertAfterNode family.offset memory node nodeNew)
        (Function.update (removed nodeNew contents) list
          (before ++ nodeNew :: after)) ∧
      family.OthersStay nodeNew contents
        (Function.update (removed nodeNew contents) list
          (before ++ nodeNew :: after)) ∧
      removed nodeNew contents list = before ++ after ∧
      (Head family.offset list :: before).getLast? = some node := by
  have stays : node ∈ Head family.offset list ::
      removed nodeNew contents list := by
    rw [List.mem_cons] at member ⊢
    exact member.imp_right (List.mem_erase_of_ne different).mpr
  obtain ⟨before, after, front, second, back, place⟩ :=
    exists_placeAfter isList stays
  refine ⟨before, after, holds.insertAfterNode isNode different place,
    holds.othersStay_inserted place, place.isSplit, ?_⟩
  rw [place.isFront, List.getLast?_concat]

/-- Only the tail itself has nothing but the tail behind it. -/
theorem Holds.after_eq_nil
    (holds : family.Holds 0 memory contents)
    (isList : family.IsList list)
    (isSplit : removed node contents list = before ++ after)
    (isTail : (after ++ [Tail family.offset list]).head? =
      some (Tail family.offset list)) :
    after = [] := by
  cases after with
  | nil => rfl
  | cons first rest =>
      have same : first = Tail family.offset list := Option.some_inj.mp isTail
      have member : first ∈ removed node contents list := by
        rw [isSplit]
        exact List.mem_append_right _ List.mem_cons_self
      have isNode := holds.nodes isList first (List.mem_of_mem_erase member)
      exact absurd (same ▸ isNode) (tail_notNode isList)

theorem Holds.before_eq_nil
    (holds : family.Holds 0 memory contents)
    (isList : family.IsList list)
    (isSplit : removed node contents list = before ++ after)
    (isHead : (Head family.offset list :: before).getLast? =
      some (Head family.offset list)) :
    before = [] := by
  rcases List.eq_nil_or_concat' before with isNil | ⟨front, last, rfl⟩
  · exact isNil
  · rw [← List.cons_append, List.getLast?_concat, Option.some_inj] at isHead
    have member : last ∈ removed node contents list := by
      rw [isSplit]
      exact List.mem_append_left _ (List.mem_append_right _ List.mem_cons_self)
    have isNode := holds.nodes isList last (List.mem_of_mem_erase member)
    exact absurd (isHead ▸ isNode) (head_notNode isList)

/-- A list without its first or last node, and the others as they are. -/
theorem Holds.removed_eq
    (holds : family.Holds 0 memory contents)
    (isList : family.IsList list)
    (member : node ∈ contents list)
    {rest : List Nat}
    (erased : (contents list).erase node = rest)
    {other : Nat}
    (isOther : family.IsList other) :
    removed node contents other =
      if other = list then rest else contents other := by
  by_cases same : other = list
  · rw [if_pos same, same]
    exact erased
  · rw [if_neg same]
    exact List.erase_of_not_mem fun inOther =>
      same (holds.disjoint isOther isList inOther member)

/-- What one call does. -/
theorem Holds.step
    (holds : family.Holds 0 memory contents)
    {call : ListCall}
    (allowed : family.Allowed memory call) :
    ∃ contents', family.Holds 0 (run family.offset memory call) contents' ∧
      family.Moves memory contents contents' call := by
  cases call with
  | InsertBeforeNode node nodeNew =>
      obtain ⟨isNode, list, isList, given⟩ := allowed
      by_cases same : node = nodeNew
      · refine ⟨contents, ?_, ?_⟩
        · rw [run, InsertBeforeNode, if_neg (by tauto)]
          exact holds
        · rw [Moves, if_pos same]
          exact fun _ _ => rfl
      · rw [holds.onList_iff isList, ← List.mem_singleton, ← List.mem_append]
          at given
        obtain ⟨before, after, later, others, _, isNext⟩ :=
          holds.step_insertBefore isNode isList same given
        refine ⟨_, later, ?_⟩
        rw [Moves, if_neg same]
        exact ⟨others, list, before, after, isList, Function.update_self _ _ _,
          isNext⟩
  | InsertAfterNode node nodeNew =>
      obtain ⟨isNode, list, isList, given⟩ := allowed
      by_cases same : node = nodeNew
      · refine ⟨contents, ?_, ?_⟩
        · rw [run, InsertAfterNode, if_neg (by tauto)]
          exact holds
        · rw [Moves, if_pos same]
          exact fun _ _ => rfl
      · rw [holds.onList_iff isList, or_comm, ← List.mem_cons] at given
        obtain ⟨before, after, later, others, _, isPrev⟩ :=
          holds.step_insertAfter isNode isList same given
        refine ⟨_, later, ?_⟩
        rw [Moves, if_neg same]
        exact ⟨others, list, before, after, isList, Function.update_self _ _ _,
          isPrev⟩
  | LinkAtFront list node =>
      obtain ⟨isList, isNode⟩ := allowed
      have different : Head family.offset list ≠ node := by
        rintro rfl
        exact head_notNode isList isNode
      obtain ⟨before, after, later, others, isSplit, isPrev⟩ :=
        holds.step_insertAfter isNode isList different List.mem_cons_self
      refine ⟨_, later, others, after, ?_⟩
      rw [Function.update_self, holds.before_eq_nil isList isSplit isPrev]
      rfl
  | LinkAtBack list node =>
      obtain ⟨isList, isNode⟩ := allowed
      have different : Tail family.offset list ≠ node := by
        rintro rfl
        exact tail_notNode isList isNode
      obtain ⟨before, after, later, others, isSplit, isNext⟩ :=
        holds.step_insertBefore isNode isList different
          (List.mem_append_right _ List.mem_cons_self)
      refine ⟨_, later, others, before, ?_⟩
      rw [Function.update_self, holds.after_eq_nil isList isSplit isNext]
  | Unlink node =>
      exact ⟨_, holds.unlink allowed, holds.othersStay_removed,
        fun _ isList => holds.away_removed isList⟩
  | ExtractFirstNode list =>
      have isList : family.IsList list := allowed
      have isFirst := holds.firstValidNode isList
      rw [run, ExtractFirstNode]
      simp only [Moves, ExtractFirstNode, isFirst, true_and]
      cases isContents : contents list with
      | nil =>
          refine ⟨contents, holds, ?_⟩
          intro other _
          by_cases same : other = list
          · rw [if_pos same, same, isContents]
            rfl
          · rw [if_neg same]
      | cons node rest =>
          have member : node ∈ contents list := by
            rw [isContents]
            exact List.mem_cons_self
          have isNode := holds.nodes isList node member
          rw [List.head?_cons, Option.getD_some,
            if_pos (family.nodeNonzero isNode)]
          refine ⟨_, holds.unlink isNode, ?_⟩
          intro other isOther
          apply holds.removed_eq isList member _ isOther
          rw [isContents, List.erase_cons_head, List.tail_cons]
  | ExtractLastNode list =>
      have isList : family.IsList list := allowed
      have isLast := holds.lastValidNode isList
      rw [run, ExtractLastNode]
      simp only [Moves, ExtractLastNode, isLast, true_and]
      rcases List.eq_nil_or_concat' (contents list) with
        isContents | ⟨rest, node, isContents⟩
      · rw [isContents]
        refine ⟨contents, holds, ?_⟩
        intro other _
        by_cases same : other = list
        · rw [if_pos same, same, isContents]
          rfl
        · rw [if_neg same]
      · have member : node ∈ contents list := by
          rw [isContents]
          exact List.mem_append_right _ List.mem_cons_self
        have isNode := holds.nodes isList node member
        have notInRest : node ∉ rest := by
          have nodup := holds.nodup isList
          rw [isContents, List.nodup_middle, List.append_nil] at nodup
          exact (List.nodup_cons.mp nodup).1
        rw [isContents, List.getLast?_concat, Option.getD_some,
          if_pos (family.nodeNonzero isNode)]
        refine ⟨_, holds.unlink isNode, ?_⟩
        intro other isOther
        apply holds.removed_eq isList member _ isOther
        rw [isContents, List.erase_append_right _ notInRest,
          List.erase_cons_head, List.append_nil, List.dropLast_concat]

/-- In every run of calls on initialized lists and nodes, the lists are intact,
and the next call moves the node it names and no other. -/
theorem dblLinkedLists_intact
    {taken : List ((Nat → Nat) × ListCall)}
    (reached : Run family.Initialized family.Step taken memory) :
    ∃ contents, family.Intact memory contents ∧
      ∀ call, family.Allowed memory call →
        ∃ contents', family.Intact (run family.offset memory call) contents' ∧
          family.Moves memory contents contents' call := by
  obtain ⟨contents, holds⟩ := reached.invariant_of
    (fun memory => ∃ contents, family.Holds 0 memory contents)
    (fun _ _ => True)
    (fun _ initialized => ⟨_, initialized.holds⟩)
    (by
      rintro memory call later ⟨contents, holds⟩ _ ⟨allowed, rfl⟩
      obtain ⟨contents', later, _⟩ := holds.step allowed
      exact ⟨contents', later⟩)
    (fun _ _ => trivial)
  refine ⟨contents, holds.intact, ?_⟩
  intro call allowed
  obtain ⟨contents', later, moves⟩ := holds.step allowed
  exact ⟨contents', later.intact, moves⟩

/-! ## Two lists and two nodes -/

/-- The links of a node are its second and third word. -/
def twoLists : ListFamily where
  offset := 1
  IsList list := list = 10 ∨ list = 20
  IsNode node := node = 30 ∨ node = 40
  nodeNonzero isNode := by omega
  listInside isList := by omega
  nodesApart isNode isOther := by omega
  listsApart isList isOther different := by omega
  apart isList isNode := by omega

/-- A memory with two empty lists, whose heads are at 9 and at 19. -/
def emptyLists (address : Nat) : Nat :=
  if address = 10 then 10
  else if address = 12 then 9
  else if address = 20 then 20
  else if address = 22 then 19
  else 0

/-- A node that was moved from one of the lists to the other. -/
def movedNode : Nat → Nat :=
  run 1 (run 1 emptyLists (.LinkAtBack 10 30)) (.LinkAtFront 20 30)

theorem dblLinkedLists_intact_twoLists :
    ∃ contents, twoLists.Intact
        (run 1 movedNode (.InsertBeforeNode 30 40)) contents ∧
      ∀ call, twoLists.Allowed
          (run 1 movedNode (.InsertBeforeNode 30 40)) call →
        ∃ contents', twoLists.Intact
            (run 1 (run 1 movedNode (.InsertBeforeNode 30 40)) call)
            contents' ∧
          twoLists.Moves (run 1 movedNode (.InsertBeforeNode 30 40)) contents
            contents' call := by
  have initialized : twoLists.Initialized emptyLists := by
    constructor
    · rintro list (rfl | rfl)
      · show Function.update (Function.update (Function.update emptyLists 10
          (emptyLists 10)) 11 (emptyLists 11)) 12 (emptyLists 12) = emptyLists
        simp only [Function.update_eq_self]
      · show Function.update (Function.update (Function.update emptyLists 20
          (emptyLists 20)) 21 (emptyLists 21)) 22 (emptyLists 22) = emptyLists
        simp only [Function.update_eq_self]
    · rintro node (rfl | rfl)
      · show Function.update (Function.update emptyLists 31 (emptyLists 31)) 32
          (emptyLists 32) = emptyLists
        simp only [Function.update_eq_self]
      · show Function.update (Function.update emptyLists 41 (emptyLists 41)) 42
          (emptyLists 42) = emptyLists
        simp only [Function.update_eq_self]
  have first : twoLists.Allowed emptyLists (.LinkAtBack 10 30) :=
    ⟨.inl rfl, .inl rfl⟩
  have second : twoLists.Allowed (run 1 emptyLists (.LinkAtBack 10 30))
      (.LinkAtFront 20 30) :=
    ⟨.inr rfl, .inl rfl⟩
  have third : twoLists.Allowed movedNode (.InsertBeforeNode 30 40) :=
    ⟨.inr rfl, 20, .inr rfl, .inl ⟨2, [30], 20, by decide, List.mem_cons_self⟩⟩
  exact dblLinkedLists_intact
    (((Run.start initialized).next ⟨first, rfl⟩).next ⟨second, rfl⟩ |>.next
      ⟨third, rfl⟩)

end Integrity

end ListFamily

end Hal

end NanoClr
