import NanoClr.Hal.DblLinkedList

/-!
# Removing and inserting nodes

The invariant of the links, and what removing a node and inserting one between
two others do to it.
-/

namespace NanoClr

namespace Hal

open HAL_DblLinkedList

/-! ## The invariant -/

namespace ListFamily

/-- The links of every list are those of its nodes, every node is on at most
one list, and a node that is on none has no links, except for one. -/
structure Holds
    (family : ListFamily)
    (except : Nat)
    (memory : Nat → Nat)
    (contents : Nat → List Nat) : Prop where
  nodes : ∀ {list}, family.IsList list →
    ∀ node ∈ contents list, family.IsNode node
  linked : ∀ {list}, family.IsList list →
    Linked (Next family.offset memory) (Prev family.offset memory)
      (family.chain list (contents list))
  null : ∀ {list}, family.IsList list → memory (list + 1) = 0
  nodup : ∀ {list}, family.IsList list → (contents list).Nodup
  disjoint : ∀ {list other node}, family.IsList list → family.IsList other →
    node ∈ contents list → node ∈ contents other → list = other
  free : ∀ {node}, family.IsNode node → node ≠ except →
    (∀ list, family.IsList list → node ∉ contents list) →
      Next family.offset memory node = 0 ∧ Prev family.offset memory node = 0

section Invariant

variable
  {family : ListFamily}
  {memory : Nat → Nat}
  {contents contents' : Nat → List Nat}
  {except source target newNext newPrev node list first second : Nat}
  {nodes before after front back : List Nat}

theorem Holds.congr
    (holds : family.Holds except memory contents)
    (same : ∀ list, family.IsList list → contents' list = contents list) :
    family.Holds except memory contents' where
  nodes isList := same _ isList ▸ holds.nodes isList
  linked isList := same _ isList ▸ holds.linked isList
  null := holds.null
  nodup isList := same _ isList ▸ holds.nodup isList
  disjoint isList isOther member otherMember :=
    holds.disjoint isList isOther (same _ isList ▸ member)
      (same _ isOther ▸ otherMember)
  free isNode notExcept away := holds.free isNode notExcept
    fun list isList => same list isList ▸ away list isList

theorem isSource_of_mem
    (isList : family.IsList list)
    (isNodes : ∀ node ∈ nodes, family.IsNode node)
    (member : node ∈ Head family.offset list :: nodes) :
    family.IsSource node := by
  rcases List.mem_cons.mp member with rfl | member
  · exact .inr ⟨list, isList, rfl⟩
  · exact .inl (isNodes node member)

theorem isTarget_of_mem
    (isList : family.IsList list)
    (isNodes : ∀ node ∈ nodes, family.IsNode node)
    (member : node ∈ nodes ++ [Tail family.offset list]) :
    family.IsTarget node := by
  rcases List.mem_append.mp member with member | member
  · exact .inl (isNodes node member)
  · exact .inr ⟨list, isList, List.mem_singleton.mp member⟩

theorem chain_dropLast :
    (family.chain list nodes).dropLast = Head family.offset list :: nodes := by
  rw [chain, ← List.cons_append, List.dropLast_concat]

/-- Links that are set are set in the links of a list. -/
theorem linked_relink
    (isSource : family.IsSource source)
    (isTarget : family.IsTarget target)
    (isList : family.IsList list)
    (isNodes : ∀ node ∈ nodes, family.IsNode node)
    (linked : Linked
      (Function.update (Next family.offset memory) source newNext)
      (Function.update (Prev family.offset memory) target newPrev)
      (family.chain list nodes)) :
    Linked (Next family.offset
        (family.relink memory source target newNext newPrev))
      (Prev family.offset
        (family.relink memory source target newNext newPrev))
      (family.chain list nodes) := by
  apply linked.congr
  · intro node member
    rw [chain_dropLast] at member
    exact next_relink isTarget (isSource_of_mem isList isNodes member)
  · intro node member
    exact prev_relink isSource (isTarget_of_mem isList isNodes member)

/-- Links that are set elsewhere do not matter to a list. -/
theorem linked_relink_away
    (isSource : family.IsSource source)
    (isTarget : family.IsTarget target)
    (isList : family.IsList list)
    (isNodes : ∀ node ∈ nodes, family.IsNode node)
    (noSource : source ∉ Head family.offset list :: nodes)
    (noTarget : target ∉ nodes ++ [Tail family.offset list])
    (linked : Linked (Next family.offset memory) (Prev family.offset memory)
      (family.chain list nodes)) :
    Linked (Next family.offset
        (family.relink memory source target newNext newPrev))
      (Prev family.offset
        (family.relink memory source target newNext newPrev))
      (family.chain list nodes) := by
  apply linked_relink isSource isTarget isList isNodes
  apply linked.congr
  · intro node member
    rw [chain_dropLast] at member
    exact Function.update_of_ne (ne_of_mem_of_not_mem member noSource) _ _
  · intro node member
    exact Function.update_of_ne (ne_of_mem_of_not_mem member noTarget) _ _

/-- A node that is on a list, or a head, is a neighbour in that list only. -/
theorem Holds.source_elsewhere
    (holds : family.Holds except memory contents)
    (isList : family.IsList list)
    (member : source ∈ Head family.offset list :: contents list)
    {other : Nat}
    (isOther : family.IsList other)
    (different : other ≠ list) :
    source ∉ Head family.offset other :: contents other := by
  intro otherMember
  rcases List.mem_cons.mp member with rfl | member
  · rcases List.mem_cons.mp otherMember with same | otherMember
    · exact different (head_injective isOther isList same.symm)
    · exact head_notNode isList (holds.nodes isOther _ otherMember)
  · rcases List.mem_cons.mp otherMember with rfl | otherMember
    · exact head_notNode isOther (holds.nodes isList _ member)
    · exact different (holds.disjoint isOther isList otherMember member)

theorem Holds.target_elsewhere
    (holds : family.Holds except memory contents)
    (isList : family.IsList list)
    (member : target ∈ contents list ++ [Tail family.offset list])
    {other : Nat}
    (isOther : family.IsList other)
    (different : other ≠ list) :
    target ∉ contents other ++ [Tail family.offset other] := by
  intro otherMember
  rcases List.mem_append.mp member with member | member
  · rcases List.mem_append.mp otherMember with otherMember | otherMember
    · exact different (holds.disjoint isOther isList otherMember member)
    · rw [List.mem_singleton.mp otherMember] at member
      exact tail_notNode isOther (holds.nodes isList _ member)
  · rw [List.mem_singleton.mp member] at otherMember
    rcases List.mem_append.mp otherMember with otherMember | otherMember
    · exact tail_notNode isList (holds.nodes isOther _ otherMember)
    · exact different (tail_injective isOther isList
        (List.mem_singleton.mp otherMember).symm)

/-! ## Places in a list -/

/-- The neighbours of a place in a list. -/
structure Place
    (family : ListFamily)
    (contents : Nat → List Nat)
    (list first second : Nat)
    (before after front back : List Nat) : Prop where
  isList : family.IsList list
  isSplit : contents list = before ++ after
  isFront : Head family.offset list :: before = front ++ [first]
  isBack : after ++ [Tail family.offset list] = second :: back

theorem exists_front (family : ListFamily) (list : Nat) (before : List Nat) :
    ∃ front first, Head family.offset list :: before = front ++ [first] :=
  (List.eq_nil_or_concat' _).resolve_left (List.cons_ne_nil _ _)

theorem exists_back (family : ListFamily) (list : Nat) (after : List Nat) :
    ∃ second back, after ++ [Tail family.offset list] = second :: back :=
  List.exists_cons_of_ne_nil
    (List.append_ne_nil_of_right_ne_nil after (List.cons_ne_nil _ []))

namespace Place

theorem chain_eq
    (place : family.Place contents list first second before after front back)
    (middle : List Nat) :
    family.chain list (before ++ (middle ++ after)) =
      front ++ first :: (middle ++ second :: back) := by
  rw [chain, List.append_assoc, List.append_assoc, ← List.cons_append,
    place.isFront, place.isBack, List.append_assoc]
  rfl

theorem first_mem
    (place : family.Place contents list first second before after front back) :
    first ∈ Head family.offset list :: before := by
  rw [place.isFront]
  exact List.mem_append_right _ List.mem_cons_self

theorem second_mem
    (place : family.Place contents list first second before after front back) :
    second ∈ after ++ [Tail family.offset list] := by
  rw [place.isBack]
  exact List.mem_cons_self

theorem first_on
    (place : family.Place contents list first second before after front back) :
    first ∈ Head family.offset list :: contents list := by
  rw [place.isSplit, ← List.cons_append]
  exact List.mem_append_left _ place.first_mem

theorem second_on
    (place : family.Place contents list first second before after front back) :
    second ∈ contents list ++ [Tail family.offset list] := by
  rw [place.isSplit, List.append_assoc]
  exact List.mem_append_right _ place.second_mem

theorem isSource
    (place : family.Place contents list first second before after front back)
    (isNodes : ∀ node ∈ contents list, family.IsNode node) :
    family.IsSource first :=
  isSource_of_mem place.isList isNodes place.first_on

theorem isTarget
    (place : family.Place contents list first second before after front back)
    (isNodes : ∀ node ∈ contents list, family.IsNode node) :
    family.IsTarget second :=
  isTarget_of_mem place.isList isNodes place.second_on

theorem linked
    (place : family.Place contents list first second before after front back)
    (holds : family.Holds except memory contents) :
    Linked (Next family.offset memory) (Prev family.offset memory)
      (front ++ first :: second :: back) := by
  have linked := holds.linked place.isList
  have isChain : family.chain list (before ++ after) =
      front ++ first :: second :: back := place.chain_eq []
  rw [place.isSplit, isChain] at linked
  exact linked

/-- The nodes of a chain without its tail are all different, and so are those
without its head. -/
theorem apart
    (place : family.Place contents list first second before after front back)
    (isNodes : ∀ node ∈ contents list, family.IsNode node)
    (nodup : (contents list).Nodup) :
    first ∉ front ++ (second :: back).dropLast ∧
      second ∉ (front ++ [first]).tail ++ back := by
  rw [place.isSplit] at isNodes nodup
  have headNotIn : Head family.offset list ∉ before ++ after :=
    fun inside => head_notNode place.isList (isNodes _ inside)
  have tailNotIn : Tail family.offset list ∉ before ++ after :=
    fun inside => tail_notNode place.isList (isNodes _ inside)
  constructor
  · have all : (front ++ [first] ++ after).Nodup := by
      rw [← place.isFront, List.cons_append]
      exact List.nodup_cons.mpr ⟨headNotIn, nodup⟩
    rw [← place.isBack, List.dropLast_concat]
    rw [List.append_assoc, List.singleton_append, List.nodup_middle] at all
    exact (List.nodup_cons.mp all).1
  · have all : (before ++ second :: back).Nodup := by
      rw [← place.isBack, ← List.append_assoc, ← List.concat_eq_append]
      exact (List.nodup_concat _ _).mpr ⟨tailNotIn, nodup⟩
    rw [← place.isFront, List.tail_cons]
    rw [List.nodup_middle] at all
    exact (List.nodup_cons.mp all).1

/-- A node that is not on the list is no neighbour in it. -/
theorem free_ne
    (place : family.Place contents list first second before after front back)
    (isNode : family.IsNode node)
    (away : node ∉ contents list) :
    node ≠ first ∧ node ≠ second := by
  constructor
  · rintro rfl
    rcases List.mem_cons.mp place.first_on with rfl | inside
    · exact head_notNode place.isList isNode
    · exact away inside
  · rintro rfl
    rcases List.mem_append.mp place.second_on with inside | isTail
    · exact away inside
    · rw [List.mem_singleton.mp isTail] at isNode
      exact tail_notNode place.isList isNode

end Place

/-! ## Removing a node -/

/-- The lists without a node. -/
def removed (node : Nat) (contents : Nat → List Nat) : Nat → List Nat :=
  fun list => (contents list).erase node

theorem Holds.removeFromList
    (holds : family.Holds 0 memory contents)
    (isNode : family.IsNode node) :
    family.Holds node (RemoveFromList family.offset memory node)
      (removed node contents) := by
  by_cases onList : ∃ list, family.IsList list ∧ node ∈ contents list
  · obtain ⟨list, isList, member⟩ := onList
    obtain ⟨before, after, isSplit⟩ := List.append_of_mem member
    have nodup := holds.nodup isList
    have linked := holds.linked isList
    rw [isSplit] at nodup linked
    have parts := List.nodup_append.mp nodup
    have notBefore : node ∉ before := fun inBefore =>
      parts.2.2 node inBefore node List.mem_cons_self rfl
    have erased : (contents list).erase node = before ++ after := by
      rw [isSplit, List.erase_append_right _ notBefore, List.erase_cons_head]
    obtain ⟨front, first, isFront⟩ := exists_front family list before
    obtain ⟨second, back, isBack⟩ := exists_back family list after
    -- The neighbours of the node are those of the place that it leaves.
    have place : family.Place (removed node contents) list first second before
        after front back := ⟨isList, erased, isFront, isBack⟩
    have staysNode {list : Nat} (isList : family.IsList list) :
        ∀ other ∈ removed node contents list, family.IsNode other :=
      fun other inRemoved =>
        holds.nodes isList other (List.mem_of_mem_erase inRemoved)
    have isSource := place.isSource (staysNode isList)
    have isTarget := place.isTarget (staysNode isList)
    have isChain : family.chain list (before ++ node :: after) =
        front ++ first :: node :: second :: back := place.chain_eq [node]
    rw [isChain] at linked
    have isPrev := linked.pair.2
    have isNext : Next family.offset memory node = second := by
      rw [List.append_cons] at linked
      exact linked.pair.1
    have removes : RemoveFromList family.offset memory node =
        family.relink memory first second second first := by
      rw [RemoveFromList, isPrev, isNext, if_pos (source_nonzero isSource),
        if_pos (target_nonzero isTarget)]
      rfl
    have firstOn : first ∈ Head family.offset list :: contents list := by
      have firstOn := place.first_on
      rw [List.mem_cons] at firstOn ⊢
      exact firstOn.imp_right List.mem_of_mem_erase
    have secondOn : second ∈ contents list ++ [Tail family.offset list] := by
      have secondOn := place.second_on
      rw [List.mem_append] at secondOn ⊢
      exact secondOn.imp_left List.mem_of_mem_erase
    rw [removes]
    refine {
      nodes := staysNode
      linked := ?_
      null := fun isOther => (null_relink isSource isTarget isOther).trans
        (holds.null isOther)
      nodup := fun isOther => (holds.nodup isOther).erase node
      disjoint := fun isOne isOther inOne inOther =>
        holds.disjoint isOne isOther (List.mem_of_mem_erase inOne)
          (List.mem_of_mem_erase inOther)
      free := ?_ }
    · intro other isOther
      by_cases same : other = list
      · subst same
        apply linked_relink isSource isTarget isOther (staysNode isOther)
        obtain ⟨firstApart, secondApart⟩ := place.apart (staysNode isOther)
          ((holds.nodup isOther).erase node)
        rw [List.mem_append, not_or] at firstApart secondApart
        have isCut : family.chain other (before ++ after) =
            front ++ first :: second :: back := place.chain_eq []
        rw [place.isSplit, isCut]
        exact linked.cut firstApart.1 firstApart.2 secondApart.1 secondApart.2
      · have notNode : node ∉ contents other := fun inOther =>
          same (holds.disjoint isOther isList inOther member)
        rw [removed, List.erase_of_not_mem notNode]
        exact linked_relink_away isSource isTarget isOther
          (holds.nodes isOther)
          (holds.source_elsewhere isList firstOn isOther same)
          (holds.target_elsewhere isList secondOn isOther same)
          (holds.linked isOther)
    · intro other isOtherNode different away
      have wasAway (elsewhere : Nat) (isElsewhere : family.IsList elsewhere) :
          other ∉ contents elsewhere := fun inside =>
        away elsewhere isElsewhere ((List.mem_erase_of_ne different).mpr inside)
      obtain ⟨noNext, noPrev⟩ := holds.free isOtherNode
        (family.nodeNonzero isOtherNode) wasAway
      obtain ⟨notFirst, notSecond⟩ := place.free_ne isOtherNode (away list isList)
      rw [next_relink isTarget (.inl isOtherNode),
        prev_relink isSource (.inl isOtherNode),
        Function.update_of_ne notFirst, Function.update_of_ne notSecond]
      exact ⟨noNext, noPrev⟩
  · have away (list : Nat) (isList : family.IsList list) :
        node ∉ contents list := fun member => onList ⟨list, isList, member⟩
    obtain ⟨noNext, noPrev⟩ :=
      holds.free isNode (family.nodeNonzero isNode) away
    have unchanged : RemoveFromList family.offset memory node = memory := by
      simp [RemoveFromList, noNext, noPrev]
    have same (list : Nat) (isList : family.IsList list) :
        removed node contents list = contents list :=
      List.erase_of_not_mem (away list isList)
    rw [unchanged]
    exact { holds.congr same with
      free := fun isOther _ => (holds.congr same).free isOther
        (family.nodeNonzero isOther) }

/-! ## Inserting a node -/

theorem inserted_mem
    (isSplit : contents list = before ++ after)
    (member : other ∈
      Function.update contents list (before ++ node :: after) except) :
    (other = node ∧ except = list) ∨ other ∈ contents except := by
  by_cases same : except = list
  · subst same
    rw [Function.update_self, List.mem_append, List.mem_cons] at member
    rw [isSplit, List.mem_append]
    tauto
  · rw [Function.update_of_ne same] at member
    exact .inr member

theorem insert_eq
    (isSource : family.IsSource first)
    (isTarget : family.IsTarget second) :
    Insert family.offset memory first second node =
      family.relink (family.relink memory node node second first) first second
        node node :=
  relink_comm isSource isTarget

theorem Holds.insert
    (holds : family.Holds node memory contents)
    (isNode : family.IsNode node)
    (away : ∀ list, family.IsList list → node ∉ contents list)
    (place : family.Place contents list first second before after front back) :
    family.Holds 0 (Insert family.offset memory first second node)
      (Function.update contents list (before ++ node :: after)) := by
  have isSource := place.isSource (holds.nodes place.isList)
  have isTarget := place.isTarget (holds.nodes place.isList)
  have notHead {list : Nat} (isList : family.IsList list) :
      node ∉ Head family.offset list :: contents list := by
    rw [List.mem_cons, not_or]
    refine ⟨?_, away list isList⟩
    rintro rfl
    exact head_notNode isList isNode
  have notTail {list : Nat} (isList : family.IsList list) :
      node ∉ contents list ++ [Tail family.offset list] := by
    rw [List.mem_append, List.mem_singleton, not_or]
    refine ⟨away list isList, ?_⟩
    rintro rfl
    exact tail_notNode isList isNode
  have notFirst : node ≠ first := by
    rintro rfl
    exact notHead place.isList place.first_on
  have notSecond : node ≠ second := by
    rintro rfl
    exact notTail place.isList place.second_on
  -- The links of the node are set first, and no list knows of them.
  have linkedNode {list : Nat} (isList : family.IsList list) :
      Linked (Next family.offset (family.relink memory node node second first))
        (Prev family.offset (family.relink memory node node second first))
        (family.chain list (contents list)) :=
    linked_relink_away (.inl isNode) (.inl isNode) isList (holds.nodes isList)
      (notHead isList) (notTail isList) (holds.linked isList)
  have isNodes {other : Nat} (isOther : family.IsList other) :
      ∀ entry ∈ Function.update contents list (before ++ node :: after) other,
        family.IsNode entry := by
    intro entry member
    rcases inserted_mem place.isSplit member with ⟨rfl, _⟩ | member
    · exact isNode
    · exact holds.nodes isOther entry member
  rw [insert_eq isSource isTarget]
  refine {
    nodes := isNodes
    linked := ?_
    null := fun isOther => (null_relink isSource isTarget isOther).trans
      ((null_relink (.inl isNode) (.inl isNode) isOther).trans
        (holds.null isOther))
    nodup := ?_
    disjoint := ?_
    free := ?_ }
  · intro other isOther
    by_cases same : other = list
    · subst same
      apply linked_relink isSource isTarget isOther (isNodes isOther)
      obtain ⟨firstApart, secondApart⟩ :=
        place.apart (holds.nodes isOther) (holds.nodup isOther)
      have linked := linkedNode isOther
      rw [place.isSplit] at linked
      have isOld : family.chain other (before ++ after) =
          front ++ first :: second :: back := place.chain_eq []
      have isNew : family.chain other (before ++ node :: after) =
          front ++ first :: node :: second :: back := place.chain_eq [node]
      rw [isOld] at linked
      rw [Function.update_self, isNew]
      apply linked.insertBetween
      · intro entry member
        exact Function.update_of_ne (ne_of_mem_of_not_mem member firstApart) _ _
      · intro entry member
        exact Function.update_of_ne (ne_of_mem_of_not_mem member secondApart) _ _
      · refine ⟨Function.update_self _ _ _, ?_⟩
        rw [Function.update_of_ne notSecond,
          prev_relink (.inl isNode) (.inl isNode), Function.update_self]
      · refine ⟨?_, Function.update_self _ _ _⟩
        rw [Function.update_of_ne notFirst,
          next_relink (.inl isNode) (.inl isNode), Function.update_self]
    · rw [Function.update_of_ne same]
      exact linked_relink_away isSource isTarget isOther (holds.nodes isOther)
        (holds.source_elsewhere place.isList place.first_on isOther same)
        (holds.target_elsewhere place.isList place.second_on isOther same)
        (linkedNode isOther)
  · intro other isOther
    by_cases same : other = list
    · subst same
      have nodup := holds.nodup isOther
      have notIn := away other isOther
      rw [place.isSplit] at nodup notIn
      rw [Function.update_self, List.nodup_middle]
      exact List.nodup_cons.mpr ⟨notIn, nodup⟩
    · rw [Function.update_of_ne same]
      exact holds.nodup isOther
  · intro one other entry isOne isOther inOne inOther
    rcases inserted_mem place.isSplit inOne with ⟨isNew, oneIs⟩ | inOne
    · rcases inserted_mem place.isSplit inOther with ⟨_, otherIs⟩ | inOther
      · rw [oneIs, otherIs]
      · exact absurd (isNew ▸ inOther) (away other isOther)
    · rcases inserted_mem place.isSplit inOther with ⟨isNew, _⟩ | inOther
      · exact absurd (isNew ▸ inOne) (away one isOne)
      · exact holds.disjoint isOne isOther inOne inOther
  · intro other isOtherNode _ nowAway
    have different : other ≠ node := by
      rintro rfl
      apply nowAway list place.isList
      rw [Function.update_self]
      exact List.mem_append_right _ List.mem_cons_self
    have wasAway (elsewhere : Nat) (isElsewhere : family.IsList elsewhere) :
        other ∉ contents elsewhere := by
      intro inside
      apply nowAway elsewhere isElsewhere
      by_cases same : elsewhere = list
      · subst same
        rw [place.isSplit, List.mem_append] at inside
        rw [Function.update_self, List.mem_append, List.mem_cons]
        exact inside.imp_right .inr
      · rw [Function.update_of_ne same]
        exact inside
    obtain ⟨noNext, noPrev⟩ := holds.free isOtherNode different wasAway
    obtain ⟨otherFirst, otherSecond⟩ :=
      place.free_ne isOtherNode (wasAway list place.isList)
    rw [next_relink isTarget (.inl isOtherNode),
      prev_relink isSource (.inl isOtherNode),
      Function.update_of_ne otherFirst, Function.update_of_ne otherSecond,
      next_relink (.inl isNode) (.inl isOtherNode),
      prev_relink (.inl isNode) (.inl isOtherNode),
      Function.update_of_ne different, Function.update_of_ne different]
    exact ⟨noNext, noPrev⟩

end Invariant

end ListFamily

end Hal

end NanoClr
