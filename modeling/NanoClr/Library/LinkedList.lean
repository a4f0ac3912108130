import Mathlib.Data.List.Chain
import NanoClr.Library.Loop

/-!
# Doubly linked lists

Nodes are linked by two functions, one for each direction.  A run of nodes is
linked when neighbours point at each other; the edits of a list are stated on
the run they touch, so that they hold of any storage of the two links.
-/

namespace NanoClr

/-- Two neighbours that point at each other. -/
def LinkedPair {α : Type} (next prev : α → α) (left right : α) : Prop :=
  next left = right ∧ prev right = left

/-- A run of nodes in which all neighbours point at each other. -/
abbrev Linked {α : Type} (next prev : α → α) (nodes : List α) : Prop :=
  nodes.IsChain (LinkedPair next prev)

namespace Linked

variable {α : Type} {next prev next' prev' : α → α}

/-- Neighbours inside a linked run. -/
theorem pair
    {before after : List α}
    {left right : α}
    (linked : Linked next prev (before ++ left :: right :: after)) :
    LinkedPair next prev left right :=
  (List.isChain_append_cons_cons.mp linked).2.1

/-- The part of a linked run up to one of its nodes. -/
theorem upTo
    {before after : List α}
    {middle : α}
    (linked : Linked next prev (before ++ middle :: after)) :
    Linked next prev (before ++ [middle]) :=
  (List.isChain_split.mp linked).1

/-- The part of a linked run from one of its nodes on. -/
theorem from_
    {before after : List α}
    {middle : α}
    (linked : Linked next prev (before ++ middle :: after)) :
    Linked next prev (middle :: after) :=
  (List.isChain_split.mp linked).2

/-- Two linked runs and a linked pair between them. -/
theorem join
    {before after : List α}
    {left right : α}
    (first : Linked next prev (before ++ [left]))
    (middle : LinkedPair next prev left right)
    (second : Linked next prev (right :: after)) :
    Linked next prev (before ++ left :: right :: after) :=
  List.isChain_append_cons_cons.mpr ⟨first, middle, second⟩

/-- A run stays linked when the links of its nodes stay. -/
theorem congr
    {nodes : List α}
    (linked : Linked next prev nodes)
    (sameNext : ∀ node ∈ nodes.dropLast, next' node = next node)
    (samePrev : ∀ node ∈ nodes.tail, prev' node = prev node) :
    Linked next' prev' nodes := by
  induction nodes with
  | nil => exact List.isChain_nil
  | cons left rest inductionHypothesis =>
      cases rest with
      | nil => exact List.isChain_singleton left
      | cons right rest =>
          have ⟨edge, tail⟩ := List.isChain_cons_cons.mp linked
          refine List.isChain_cons_cons.mpr
            ⟨⟨?_, ?_⟩, inductionHypothesis tail ?_ ?_⟩
          · rw [sameNext left (by simp)]
            exact edge.1
          · rw [samePrev right (by simp)]
            exact edge.2
          · intro node member
            exact sameNext node (by simp [member])
          · intro node member
            exact samePrev node (by simpa using List.mem_of_mem_tail member)

/-- Behind the first node of a linked run, the links back stay in the run. -/
theorem prev_mem
    {first node : α}
    {rest : List α}
    (linked : Linked next prev (first :: rest))
    (member : node ∈ rest) :
    prev node ∈ (first :: rest).dropLast := by
  induction rest generalizing first with
  | nil => cases member
  | cons second rest inductionHypothesis =>
      have ⟨edge, tail⟩ := List.isChain_cons_cons.mp linked
      rw [List.dropLast_cons_cons]
      rcases List.mem_cons.mp member with rfl | later
      · rw [edge.2]
        exact List.mem_cons_self
      · exact List.mem_cons_of_mem _ (inductionHypothesis tail later)

/-- Before the last node of a linked run, the links stay in the run. -/
theorem next_mem
    {first node : α}
    {rest : List α}
    (linked : Linked next prev (first :: rest))
    (member : node ∈ (first :: rest).dropLast) :
    next node ∈ rest := by
  induction rest generalizing first with
  | nil => cases member
  | cons second rest inductionHypothesis =>
      have ⟨edge, tail⟩ := List.isChain_cons_cons.mp linked
      rw [List.dropLast_cons_cons] at member
      rcases List.mem_cons.mp member with rfl | later
      · rw [edge.1]
        exact List.mem_cons_self
      · exact List.mem_cons_of_mem _ (inductionHypothesis tail later)

end Linked

/-! ## Searching along the links -/

/-- One round of a search: a node without a successor ends the list. -/
def searchNode (link : Nat → Nat) (found : Nat → Bool) (miss : Nat → Nat)
    (node : Nat) : LoopStep Nat Nat :=
  if link node = 0 then .done (miss node)
  else if found node then .done node
  else .next (link node)

/-- A search visits the nodes in order up to the last, which has no successor
and is not tested. -/
theorem loop_searchNode
    {link : Nat → Nat}
    (found : Nat → Bool)
    (miss : Nat → Nat)
    {nodes : List Nat}
    {first last rounds : Nat}
    (chain : (nodes ++ [last]).IsChain fun left right => link left = right)
    (starts : (nodes ++ [last]).head? = some first)
    (nonzero : ∀ node ∈ nodes ++ [last], node ≠ 0)
    (ends : link last = 0)
    (enough : nodes.length < rounds) :
    loop (searchNode link found miss) rounds first =
      some ((nodes.find? found).getD (miss last)) := by
  induction nodes generalizing first rounds with
  | nil =>
      obtain ⟨rounds, rfl⟩ := Nat.exists_eq_add_of_lt enough
      have same : last = first := by simpa using starts
      subst same
      have stops : searchNode link found miss last = .done (miss last) := by
        simp [searchNode, ends]
      rw [loop_succ_done stops]
      simp
  | cons node rest inductionHypothesis =>
      have same : node = first := by simpa using starts
      subst same
      obtain ⟨rounds, rfl⟩ : ∃ less, rounds = less + 1 :=
        ⟨rounds - 1, by simp only [List.length_cons] at enough; omega⟩
      have successor : ∃ second, (rest ++ [last]).head? = some second ∧
          link node = second := by
        cases rest with
        | nil => exact ⟨last, rfl, (List.isChain_cons_cons.mp chain).1⟩
        | cons second rest =>
            exact ⟨second, rfl, (List.isChain_cons_cons.mp chain).1⟩
      obtain ⟨second, isHead, linked⟩ := successor
      have isNode : second ∈ rest ++ [last] := List.mem_of_mem_head? isHead
      have secondNonzero : second ≠ 0 :=
        nonzero second (List.mem_cons_of_mem node isNode)
      by_cases hit : found node = true
      · have stops : searchNode link found miss node = .done node := by
          simp [searchNode, linked, secondNonzero, hit]
        rw [loop_succ_done stops]
        simp [hit]
      · have goesOn : searchNode link found miss node = .next second := by
          simp [searchNode, linked, secondNonzero, hit]
        rw [loop_succ_next goesOn, inductionHypothesis chain.tail isHead
          (fun other member => nonzero other (List.mem_cons_of_mem node member))
          (by simp only [List.length_cons] at enough; omega)]
        simp [hit]

end NanoClr
