import NanoClr.Library.Rings
import NanoClr.Library.TransitionSystem

/-!
# Doubly linked lists with overlapped sentinels

The lists of the hardware layer, and those of the runtime with the same
algorithms.  Memory is made of words; the links of a node are two of them at an
offset, and a list is three words, which its head and its tail overlap.
-/

namespace NanoClr

namespace Hal

namespace HAL_DblLinkedList

section Words

variable (offset : Nat) (memory : Nat → Nat)

/-! ## Nodes -/

/-- `Next` of a node. -/
def Next (node : Nat) : Nat := memory (node + offset)

/-- `Prev` of a node. -/
def Prev (node : Nat) : Nat := memory (node + offset + 1)

/-- `SetNext` of a node. -/
def SetNext (node next : Nat) : Nat → Nat :=
  Function.update memory (node + offset) next

/-- `SetPrev` of a node. -/
def SetPrev (node prev : Nat) : Nat → Nat :=
  Function.update memory (node + offset + 1) prev

/-- `HAL_DblLinkedNode::Initialize`. -/
def InitializeNode (node : Nat) : Nat → Nat :=
  SetPrev offset (SetNext offset memory node 0) node 0

/-- `RemoveFromList`: the neighbours of a node, as far as it has any, are linked
to each other. -/
def RemoveFromList (node : Nat) : Nat → Nat :=
  let next := Next offset memory node
  let prev := Prev offset memory node
  let memory := if prev ≠ 0 then SetNext offset memory prev next else memory
  if next ≠ 0 then SetPrev offset memory next prev else memory

/-- `Unlink`: a node is removed, and its links are cleared. -/
def Unlink (node : Nat) : Nat → Nat :=
  InitializeNode offset (RemoveFromList offset memory node) node

/-! ## Lists -/

/-- A list's address is that of `m_first`. -/
def Head (list : Nat) : Nat := list - offset

/-- The word of `m_last` is the last one of three. -/
def Tail (list : Nat) : Nat := list + 2 - (offset + 1)

/-- `HAL_DblLinkedList::Initialize`. -/
def Initialize (list : Nat) : Nat → Nat :=
  let memory := Function.update memory list (Tail offset list)
  let memory := Function.update memory (list + 1) 0
  Function.update memory (list + 2) (Head offset list)

/-- `FirstNode`: what the head of a list points to. -/
def FirstNode (list : Nat) : Nat := memory list

/-- `LastNode`: what the tail of a list points to. -/
def LastNode (list : Nat) : Nat := memory (list + 2)

/-- `FirstValidNode`: the first node, unless it is the tail. -/
def FirstValidNode (list : Nat) : Nat :=
  let res := FirstNode memory list
  if Next offset memory res ≠ 0 then res else 0

/-- `LastValidNode`: the last node, unless it is the head. -/
def LastValidNode (list : Nat) : Nat :=
  let res := LastNode memory list
  if Prev offset memory res ≠ 0 then res else 0

/-- `Insert`: a node comes between two others. -/
def Insert (prev next node : Nat) : Nat → Nat :=
  let memory := SetNext offset memory node next
  let memory := SetPrev offset memory node prev
  let memory := SetPrev offset memory next node
  SetNext offset memory prev node

/-- `InsertBeforeNode`: a node leaves its list and comes in front of another
one. -/
def InsertBeforeNode (node nodeNew : Nat) : Nat → Nat :=
  if node ≠ 0 ∧ nodeNew ≠ 0 ∧ node ≠ nodeNew then
    let memory := RemoveFromList offset memory nodeNew
    Insert offset memory (Prev offset memory node) node nodeNew
  else memory

/-- `InsertAfterNode`: a node leaves its list and comes behind another one. -/
def InsertAfterNode (node nodeNew : Nat) : Nat → Nat :=
  if node ≠ 0 ∧ nodeNew ≠ 0 ∧ node ≠ nodeNew then
    let memory := RemoveFromList offset memory nodeNew
    Insert offset memory node (Next offset memory node) nodeNew
  else memory

/-- `LinkAtFront`: a node becomes the first one of a list. -/
def LinkAtFront (list node : Nat) : Nat → Nat :=
  InsertAfterNode offset memory (Head offset list) node

/-- `LinkAtBack`: a node becomes the last one of a list. -/
def LinkAtBack (list node : Nat) : Nat → Nat :=
  InsertBeforeNode offset memory (Tail offset list) node

/-- What is returned, and memory afterwards. -/
def ExtractFirstNode (list : Nat) : Nat × (Nat → Nat) :=
  let node := FirstValidNode offset memory list
  (node, if node ≠ 0 then Unlink offset memory node else memory)

/-- `ExtractLastNode`: the last node leaves its list, if there is one. -/
def ExtractLastNode (list : Nat) : Nat × (Nat → Nat) :=
  let node := LastValidNode offset memory list
  (node, if node ≠ 0 then Unlink offset memory node else memory)

/-! ## Traversal -/

/-- The nodes from one on along links in one direction, for a number of rounds,
and where they end: at a node without a link. -/
def followLinks (link : Nat → Nat) : Nat → Nat → Option (List Nat × Nat)
  | 0, _ => none
  | rounds + 1, ptr =>
      if link ptr = 0 then some ([], ptr)
      else
        (followLinks link rounds (link ptr)).map fun (nodes, last) =>
          (ptr :: nodes, last)

end Words

end HAL_DblLinkedList

open HAL_DblLinkedList

/-! ## Calls -/

/-- The calls on the lists. -/
inductive ListCall
  | InsertBeforeNode (node nodeNew : Nat)
  | InsertAfterNode (node nodeNew : Nat)
  | LinkAtFront (list node : Nat)
  | LinkAtBack (list node : Nat)
  | Unlink (node : Nat)
  | ExtractFirstNode (list : Nat)
  | ExtractLastNode (list : Nat)
deriving DecidableEq, Repr

/-- Memory after a call. -/
def HAL_DblLinkedList.run (offset : Nat) (memory : Nat → Nat) :
    ListCall → Nat → Nat
  | .InsertBeforeNode node nodeNew => InsertBeforeNode offset memory node nodeNew
  | .InsertAfterNode node nodeNew => InsertAfterNode offset memory node nodeNew
  | .LinkAtFront list node => LinkAtFront offset memory list node
  | .LinkAtBack list node => LinkAtBack offset memory list node
  | .Unlink node => HAL_DblLinkedList.Unlink offset memory node
  | .ExtractFirstNode list => (ExtractFirstNode offset memory list).2
  | .ExtractLastNode list => (ExtractLastNode offset memory list).2

/-! ## Places -/

/-- Lists and nodes whose words do not overlap. -/
structure ListFamily where
  offset : Nat
  IsList : Nat → Prop
  IsNode : Nat → Prop
  nodeNonzero : ∀ {node}, IsNode node → node ≠ 0
  listInside : ∀ {list}, IsList list → offset < list
  nodesApart : ∀ {node other}, IsNode node → IsNode other → node ≠ other + 1
  listsApart : ∀ {list other}, IsList list → IsList other → list ≠ other →
    list + 3 ≤ other ∨ other + 3 ≤ list
  apart : ∀ {list node}, IsList list → IsNode node →
    node + offset + 2 ≤ list ∨ list + 3 ≤ node + offset

namespace ListFamily

section Places

variable (family : ListFamily)

/-- Nodes and heads have a link forward. -/
def IsSource (node : Nat) : Prop :=
  family.IsNode node ∨
    ∃ list, family.IsList list ∧ node = Head family.offset list

/-- Nodes and tails have a link backward. -/
def IsTarget (node : Nat) : Prop :=
  family.IsNode node ∨
    ∃ list, family.IsList list ∧ node = Tail family.offset list

/-- A list with its sentinels. -/
def chain (list : Nat) (nodes : List Nat) : List Nat :=
  Head family.offset list :: (nodes ++ [Tail family.offset list])

variable {family} {list other node : Nat}

theorem head_add (isList : family.IsList list) :
    Head family.offset list + family.offset = list := by
  have inside := family.listInside isList
  rw [Head]
  omega

theorem tail_add (isList : family.IsList list) :
    Tail family.offset list + family.offset = list + 1 := by
  have inside := family.listInside isList
  rw [Tail]
  omega

theorem source_nonzero (isSource : family.IsSource node) : node ≠ 0 := by
  rcases isSource with isNode | ⟨list, isList, rfl⟩
  · exact family.nodeNonzero isNode
  · have inside := family.listInside isList
    rw [Head]
    omega

theorem target_nonzero (isTarget : family.IsTarget node) : node ≠ 0 := by
  rcases isTarget with isNode | ⟨list, isList, rfl⟩
  · exact family.nodeNonzero isNode
  · have inside := family.listInside isList
    rw [Tail]
    omega

/-- Heads and tails are no nodes, and no head is a tail. -/
theorem head_notTarget
    (isList : family.IsList list) :
    ¬ family.IsTarget (Head family.offset list) := by
  have place := head_add isList
  rintro (isNode | ⟨other, isOther, same⟩)
  · have apart := family.apart isList isNode
    omega
  · have otherPlace := tail_add isOther
    rw [← same] at otherPlace
    by_cases different : list = other
    · omega
    · have apart := family.listsApart isList isOther different
      omega

theorem tail_notSource
    (isList : family.IsList list) :
    ¬ family.IsSource (Tail family.offset list) := by
  have place := tail_add isList
  rintro (isNode | ⟨other, isOther, same⟩)
  · have apart := family.apart isList isNode
    omega
  · have otherPlace := head_add isOther
    rw [← same] at otherPlace
    by_cases different : list = other
    · omega
    · have apart := family.listsApart isList isOther different
      omega

theorem head_notNode (isList : family.IsList list) :
    ¬ family.IsNode (Head family.offset list) :=
  fun isNode => head_notTarget isList (.inl isNode)

theorem tail_notNode (isList : family.IsList list) :
    ¬ family.IsNode (Tail family.offset list) :=
  fun isNode => tail_notSource isList (.inl isNode)

theorem head_injective
    (isList : family.IsList list)
    (isOther : family.IsList other)
    (same : Head family.offset list = Head family.offset other) :
    list = other := by
  rw [← head_add isList, same, head_add isOther]

theorem tail_injective
    (isList : family.IsList list)
    (isOther : family.IsList other)
    (same : Tail family.offset list = Tail family.offset other) :
    list = other := by
  have place := tail_add isList
  rw [same, tail_add isOther] at place
  omega

/-- No link forward is in the word of a link backward. -/
theorem source_ne_target
    {source target : Nat}
    (isSource : family.IsSource source)
    (isTarget : family.IsTarget target) :
    source ≠ target + 1 := by
  rintro rfl
  rcases isSource with isNode | ⟨list, isList, isHead⟩
  · rcases isTarget with isOther | ⟨list, isList, rfl⟩
    · exact family.nodesApart isNode isOther rfl
    · have place := tail_add isList
      have apart := family.apart isList isNode
      omega
  · have place := head_add isList
    rw [← isHead] at place
    rcases isTarget with isNode | ⟨other, isOther, rfl⟩
    · have apart := family.apart isList isNode
      omega
    · have otherPlace := tail_add isOther
      by_cases different : list = other
      · omega
      · have apart := family.listsApart isList isOther different
        omega

end Places

/-! ## Setting links -/

section Relinking

variable
  {family : ListFamily}
  {memory : Nat → Nat}
  {source target newNext newPrev node list : Nat}

/-- One link forward and one backward are set. -/
def relink (family : ListFamily) (memory : Nat → Nat)
    (source target newNext newPrev : Nat) : Nat → Nat :=
  SetPrev family.offset (SetNext family.offset memory source newNext) target
    newPrev

theorem next_relink
    (isTarget : family.IsTarget target)
    (isSource : family.IsSource node) :
    Next family.offset (family.relink memory source target newNext newPrev)
        node =
      Function.update (Next family.offset memory) source newNext node := by
  have apart := source_ne_target isSource isTarget
  rw [Next, relink, SetPrev, SetNext, Function.update_of_ne (by omega)]
  by_cases same : node = source
  · rw [same, Function.update_self, Function.update_self]
  · rw [Function.update_of_ne (by omega), Function.update_of_ne same]
    rfl

theorem prev_relink
    (isSource : family.IsSource source)
    (isTarget : family.IsTarget node) :
    Prev family.offset (family.relink memory source target newNext newPrev)
        node =
      Function.update (Prev family.offset memory) target newPrev node := by
  have apart := source_ne_target isSource isTarget
  rw [Prev, relink, SetPrev, SetNext]
  by_cases same : node = target
  · rw [same, Function.update_self, Function.update_self]
  · rw [Function.update_of_ne (by omega), Function.update_of_ne (by omega),
      Function.update_of_ne same]
    rfl

/-- The word that the sentinels of a list share is not written. -/
theorem null_relink
    (isSource : family.IsSource source)
    (isTarget : family.IsTarget target)
    (isList : family.IsList list) :
    family.relink memory source target newNext newPrev (list + 1) =
      memory (list + 1) := by
  have notTail : source ≠ Tail family.offset list := by
    rintro rfl
    exact tail_notSource isList isSource
  have notHead : target ≠ Head family.offset list := by
    rintro rfl
    exact head_notTarget isList isTarget
  have headPlace := head_add isList
  have tailPlace := tail_add isList
  rw [relink, SetPrev, SetNext, Function.update_of_ne (by omega),
    Function.update_of_ne (by omega)]

/-- The order does not matter. -/
theorem relink_comm
    (isSource : family.IsSource source)
    (isTarget : family.IsTarget target) :
    SetNext family.offset (SetPrev family.offset memory target newPrev) source
        newNext =
      family.relink memory source target newNext newPrev := by
  have apart := source_ne_target isSource isTarget
  rw [relink, SetNext, SetPrev, SetPrev, SetNext,
    Function.update_comm (by omega)]

end Relinking

end ListFamily

end Hal

end NanoClr
