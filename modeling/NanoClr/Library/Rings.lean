import Mathlib.Data.List.Nodup
import Mathlib.Logic.Function.Basic
import NanoClr.Library.LinkedList

/-!
# Rings

Doubly linked rings in one storage of links.  A ring runs from its head through
its chain back to the head; a family of rings is told apart by the heads.  A
node is unlinked from the ring it is in and linked again right behind a head.
-/

namespace NanoClr

/-- The ring from a head through a chain of nodes back to the head. -/
def IsRing {α : Type} (next prev : α → α) (head : α) (chain : List α) :
    Prop :=
  Linked next prev (head :: chain ++ [head])

namespace Linked

variable {α : Type} {next prev : α → α}

/-- A run without the node between two others, which point at each other
instead. -/
theorem cut
    [DecidableEq α]
    {before after : List α}
    {left node right : α}
    (linked : Linked next prev (before ++ left :: node :: right :: after))
    (leftBefore : left ∉ before)
    (leftAfter : left ∉ (right :: after).dropLast)
    (rightBefore : right ∉ (before ++ [left]).tail)
    (rightAfter : right ∉ after) :
    Linked (Function.update next left right) (Function.update prev right left)
      (before ++ left :: right :: after) := by
  have upTo : Linked next prev (before ++ [left]) := linked.upTo
  have behind : Linked next prev (right :: after) := linked.from_.tail.tail
  apply join
  · apply upTo.congr
    · intro other member
      rw [List.dropLast_concat] at member
      exact Function.update_of_ne (ne_of_mem_of_not_mem member leftBefore) _ _
    · intro other member
      exact Function.update_of_ne (ne_of_mem_of_not_mem member rightBefore) _ _
  · exact ⟨Function.update_self _ _ _, Function.update_self _ _ _⟩
  · apply behind.congr
    · intro other member
      exact Function.update_of_ne (ne_of_mem_of_not_mem member leftAfter) _ _
    · intro other member
      exact Function.update_of_ne (ne_of_mem_of_not_mem member rightAfter) _ _

/-- A node between two others that pointed at each other, and that point at it
instead. -/
theorem insertBetween
    {next' prev' : α → α}
    {front back : List α}
    {first second node : α}
    (linked : Linked next prev (front ++ first :: second :: back))
    (sameNext : ∀ other ∈ front ++ (second :: back).dropLast,
      next' other = next other)
    (samePrev : ∀ other ∈ (front ++ [first]).tail ++ back,
      prev' other = prev other)
    (before : LinkedPair next' prev' first node)
    (behind : LinkedPair next' prev' node second) :
    Linked next' prev' (front ++ first :: node :: second :: back) := by
  have upTo : Linked next prev (front ++ [first]) := linked.upTo
  have from_ : Linked next prev (second :: back) := linked.from_.tail
  refine join (upTo.congr ?_ ?_) before
    (List.isChain_cons_cons.mpr ⟨behind, from_.congr ?_ ?_⟩)
  · intro other member
    rw [List.dropLast_concat] at member
    exact sameNext other (List.mem_append_left _ member)
  · intro other member
    exact samePrev other (List.mem_append_left _ member)
  · intro other member
    exact sameNext other (List.mem_append_right _ member)
  · intro other member
    exact samePrev other (List.mem_append_right _ member)

end Linked

namespace IsRing

variable {α : Type} {next prev next' prev' : α → α}
variable {head node : α} {chain before after : List α}

/-- A ring without a chain is a node that is linked to itself. -/
theorem nil_iff :
    IsRing next prev head [] ↔ next head = head ∧ prev head = head :=
  List.isChain_pair

/-- A ring stays when the links of its nodes stay. -/
theorem congr
    (ring : IsRing next prev head chain)
    (sameNext : ∀ node ∈ head :: chain, next' node = next node)
    (samePrev : ∀ node ∈ head :: chain, prev' node = prev node) :
    IsRing next' prev' head chain := by
  apply Linked.congr ring
  · intro node member
    rw [List.dropLast_concat] at member
    exact sameNext node member
  · intro node member
    apply samePrev
    rw [List.cons_append, List.tail_cons, List.mem_append,
      List.mem_singleton] at member
    exact List.mem_cons.mpr member.symm

/-- The two parts of a ring around one of its nodes. -/
theorem around
    (ring : IsRing next prev head (before ++ node :: after)) :
    ∃ front left right back, head :: before = front ++ [left] ∧
      after ++ [head] = right :: back ∧
      Linked next prev (front ++ left :: node :: right :: back) ∧
      next node = right ∧ prev node = left := by
  have ⟨front, left, isFront⟩ : ∃ front left, head :: before = front ++ [left] :=
    ⟨_, _, (List.dropLast_append_getLast (List.cons_ne_nil _ _)).symm⟩
  have ⟨right, back, isBack⟩ : ∃ right back, after ++ [head] = right :: back :=
    List.exists_cons_of_ne_nil (List.append_ne_nil_of_right_ne_nil _ (by simp))
  have same : head :: (before ++ node :: after) ++ [head] =
      front ++ left :: node :: right :: back := by
    calc head :: (before ++ node :: after) ++ [head]
        = (head :: before) ++ node :: (after ++ [head]) := by simp
      _ = front ++ left :: node :: right :: back := by
          rw [isFront, isBack]
          simp
  have linked : Linked next prev (front ++ left :: node :: right :: back) :=
    same ▸ ring
  have behind : LinkedPair next prev node right :=
    (List.isChain_cons_cons.mp linked.from_.tail).1
  exact ⟨front, left, right, back, isFront, isBack, linked, behind.1,
    linked.pair.2⟩

/-- The links of the nodes of a ring stay in the ring. -/
theorem links_mem
    (ring : IsRing next prev head chain)
    (member : node ∈ head :: chain) :
    next node ∈ head :: chain ∧ prev node ∈ head :: chain := by
  have whole : Linked next prev (head :: (chain ++ [head])) := ring
  have turned : ∀ other, other ∈ chain ++ [head] ↔ other ∈ head :: chain := by
    intro other
    rw [List.mem_append, List.mem_singleton, List.mem_cons]
    exact or_comm
  have before : node ∈ (head :: (chain ++ [head])).dropLast := by
    rwa [← List.cons_append, List.dropLast_concat]
  have back : prev node ∈ (head :: (chain ++ [head])).dropLast :=
    whole.prev_mem ((turned node).mpr member)
  rw [← List.cons_append, List.dropLast_concat] at back
  exact ⟨(turned _).mp (whole.next_mem before), back⟩

/-- The last node of a chain is in front of the head. -/
theorem prev_head_mem
    (ring : IsRing next prev head chain)
    (nonempty : chain ≠ []) :
    prev head ∈ chain := by
  obtain ⟨first, rest, rfl⟩ := List.exists_cons_of_ne_nil nonempty
  have tail : Linked next prev (first :: (rest ++ [head])) :=
    (List.isChain_cons_cons.mp ring).2
  have inFront := tail.prev_mem (List.mem_concat_self (a := head))
  rwa [← List.cons_append, List.dropLast_concat] at inFront

variable [DecidableEq α]

/-- A ring without one of the nodes of its chain. -/
theorem unlink
    (ring : IsRing next prev head (before ++ node :: after))
    (nodup : (head :: (before ++ node :: after)).Nodup) :
    IsRing (Function.update next (prev node) (next node))
      (Function.update prev (next node) (prev node)) head
      (before ++ after) := by
  obtain ⟨front, left, right, back, isFront, isBack, linked, rfl, rfl⟩ :=
    ring.around
  have parts : (head :: before).Nodup ∧ (node :: after).Nodup ∧
      (head :: before).Disjoint (node :: after) :=
    List.nodup_append'.mp nodup
  have apart : ∀ other ∈ head :: before, other ∉ after :=
    fun other inFront inAfter =>
      parts.2.2 inFront (List.mem_cons_of_mem node inAfter)
  have shorter : head :: (before ++ after) ++ [head] =
      front ++ prev node :: next node :: back := by
    calc head :: (before ++ after) ++ [head]
        = (head :: before) ++ (after ++ [head]) := by simp
      _ = front ++ prev node :: next node :: back := by
          rw [isFront, isBack]
          simp
  have isLeft : prev node ∈ head :: before := by simp [isFront]
  have frontNodup : (front ++ [prev node]).Nodup := isFront ▸ parts.1
  have backNodup : (next node :: back).Nodup := by
    rw [← isBack, ← List.concat_eq_append, List.nodup_concat]
    exact ⟨apart head List.mem_cons_self, parts.2.1.of_cons⟩
  have isRight : next node ∈ after ++ [head] := by simp [isBack]
  rw [IsRing, shorter]
  apply linked.cut
  · rw [← List.concat_eq_append, List.nodup_concat] at frontNodup
    exact frontNodup.1
  · rw [← isBack, List.dropLast_concat]
    exact apart _ isLeft
  · rw [← isFront, List.tail_cons]
    intro inBefore
    rcases List.mem_append.mp isRight with inAfter | isHead
    · exact apart _ (List.mem_cons_of_mem head inBefore) inAfter
    · rw [List.mem_singleton.mp isHead] at inBefore
      exact (List.nodup_cons.mp parts.1).1 inBefore
  · exact (List.nodup_cons.mp backNodup).1

/-- A ring with another node right behind its head. -/
theorem insertBehind
    (ring : IsRing next prev head chain)
    (nodup : (head :: chain).Nodup)
    (other : node ∉ head :: chain) :
    IsRing
      (Function.update (Function.update next node (next head)) head node)
      (Function.update (Function.update prev node head) (next head) node)
      head (node :: chain) := by
  have ⟨second, rest, isRest⟩ :
      ∃ second rest, chain ++ [head] = second :: rest :=
    List.exists_cons_of_ne_nil (List.append_ne_nil_of_right_ne_nil _ (by simp))
  have whole : Linked next prev (head :: second :: rest) := by
    rw [← isRest]
    exact ring
  obtain ⟨edge, tail⟩ := List.isChain_cons_cons.mp whole
  have same : next head = second := edge.1
  have turned : (second :: rest).Nodup := by
    rw [← isRest, ← List.concat_eq_append, List.nodup_concat]
    exact List.nodup_cons.mp nodup
  have isSecond : second ∈ head :: chain := same ▸
    (ring.links_mem List.mem_cons_self).1
  have notHead : node ≠ head := fun isHead => other (by simp [isHead])
  have notSecond : node ≠ second := fun isNext => other (isNext ▸ isSecond)
  rw [IsRing, List.cons_append, List.cons_append, isRest, same]
  refine List.isChain_cons_cons.mpr
    ⟨⟨?_, ?_⟩, List.isChain_cons_cons.mpr ⟨⟨?_, ?_⟩, ?_⟩⟩
  · exact Function.update_self _ _ _
  · rw [Function.update_of_ne notSecond, Function.update_self]
  · rw [Function.update_of_ne notHead, Function.update_self]
  · exact Function.update_self _ _ _
  · apply Linked.congr tail
    · intro inside member
      rw [← isRest, List.dropLast_concat] at member
      rw [Function.update_of_ne, Function.update_of_ne]
      · exact fun isNode => other (isNode ▸ List.mem_cons_of_mem head member)
      · exact fun isHead => (List.nodup_cons.mp nodup).1 (isHead ▸ member)
    · intro inside member
      have inRing : inside ∈ head :: chain := by
        have inRun : inside ∈ chain ++ [head] := isRest ▸ List.mem_of_mem_tail member
        rw [List.mem_append, List.mem_singleton] at inRun
        exact List.mem_cons.mpr inRun.symm
      rw [Function.update_of_ne, Function.update_of_ne]
      · exact fun isNode => other (isNode ▸ inRing)
      · exact fun isNext => (List.nodup_cons.mp turned).1 (isNext ▸ member)

end IsRing

/-! ## Searching a ring -/

/-- One round of a search: back at the head, nothing was found. -/
def searchRing {α : Type} [DecidableEq α] (link : α → α) (head : α)
    (found : α → Bool) (node : α) : LoopStep α (Option α) :=
  if node = head then .done none
  else if found node then .done (some node)
  else .next (link node)

/-- A search visits the nodes of the chain in order. -/
theorem loop_searchRing
    {α : Type}
    [DecidableEq α]
    {next : α → α}
    {head first : α}
    {chain : List α}
    {rounds : Nat}
    (found : α → Bool)
    (ring : (first :: chain ++ [head]).IsChain fun left right =>
      next left = right)
    (outside : head ∉ chain)
    (enough : chain.length < rounds) :
    loop (searchRing next head found) rounds (next first) =
      some (chain.find? found) := by
  induction chain generalizing first rounds with
  | nil =>
      obtain ⟨fewer, rfl⟩ := Nat.exists_eq_add_of_lt enough
      have back : next first = head := (List.isChain_cons_cons.mp ring).1
      apply loop_succ_done
      simp [searchRing, back]
  | cons node rest inductionHypothesis =>
      obtain ⟨fewer, rfl⟩ : ∃ fewer, rounds = fewer + 1 :=
        ⟨rounds - 1, by simp only [List.length_cons] at enough; omega⟩
      have ⟨edge, tail⟩ := List.isChain_cons_cons.mp ring
      have notHead : node ≠ head := fun same => outside (by simp [same])
      rw [edge]
      by_cases hit : found node = true
      · rw [List.find?_cons_of_pos hit]
        apply loop_succ_done
        simp [searchRing, notHead, hit]
      · have goesOn : searchRing next head found node = .next (next node) := by
          simp [searchRing, notHead, hit]
        rw [List.find?_cons_of_neg hit, loop_succ_next goesOn]
        apply inductionHypothesis tail
        · exact fun inRest => outside (List.mem_cons_of_mem node inRest)
        · simp only [List.length_cons] at enough
          omega

/-! ## Families of rings -/

/-- Rings in one storage that have no node in common. -/
structure Rings {α : Type} (next prev : α → α) (heads : α → Prop)
    (chains : α → List α) : Prop where
  ring : ∀ head, heads head → IsRing next prev head (chains head)
  nodup : ∀ head, heads head → (head :: chains head).Nodup
  apart : ∀ head other node, heads head → heads other →
    node ∈ head :: chains head → node ∈ other :: chains other → head = other

/-- The chains once a node is moved behind a head. -/
def movedBehind {α : Type} [DecidableEq α] (chains : α → List α)
    (head node other : α) : List α :=
  if other = head then node :: (chains head).erase node
  else (chains other).erase node

namespace Rings

variable {α : Type} {next prev : α → α} {heads : α → Prop}
variable {chains : α → List α} {head node : α}

/-- Some of the rings of a family, their chains named another way. -/
theorem congr
    {heads' : α → Prop}
    {chains' : α → List α}
    (rings : Rings next prev heads chains)
    (fewer : ∀ head, heads' head → heads head)
    (same : ∀ head, heads' head → chains' head = chains head) :
    Rings next prev heads' chains' := by
  refine ⟨?_, ?_, ?_⟩
  · intro head isHead
    rw [same head isHead]
    exact rings.ring head (fewer head isHead)
  · intro head isHead
    rw [same head isHead]
    exact rings.nodup head (fewer head isHead)
  · intro head other node isHead isOther
    rw [same head isHead, same other isOther]
    exact rings.apart head other node (fewer head isHead) (fewer other isOther)

variable [DecidableEq α]

/-- The ring of a head without a node of the family. -/
theorem ring_unlink
    {other : α}
    (rings : Rings next prev heads chains)
    (isHead : heads head)
    (member : node ∈ head :: chains head)
    (alone : node = head → chains head = [])
    (isOther : heads other)
    (different : other ≠ node) :
    IsRing (Function.update next (prev node) (next node))
      (Function.update prev (next node) (prev node)) other
      ((chains other).erase node) := by
  have ring := rings.ring head isHead
  have inside := ring.links_mem member
  by_cases same : other = head
  · subst same
    have inChain : node ∈ chains other :=
      (List.mem_cons.mp member).resolve_left different.symm
    obtain ⟨before, after, isSplit⟩ := List.append_of_mem inChain
    have nodup := rings.nodup other isHead
    rw [isSplit] at ring nodup ⊢
    have notBefore : node ∉ before := by
      intro inBefore
      have parts := List.nodup_append'.mp nodup.of_cons
      exact parts.2.2 inBefore List.mem_cons_self
    rw [List.erase_append_right _ notBefore, List.erase_cons_head]
    exact ring.unlink nodup
  · have outside : node ∉ chains other := fun inOther =>
      same (rings.apart other head node isOther isHead
        (List.mem_cons_of_mem other inOther) member)
    have apart : ∀ inner ∈ head :: chains head, ∀ inner' ∈ other :: chains other,
        inner' ≠ inner := by
      rintro inner here _ there rfl
      exact same (rings.apart other head _ isOther isHead there here)
    rw [List.erase_of_not_mem outside]
    apply (rings.ring other isOther).congr
    · exact fun inner inOther =>
        Function.update_of_ne (apart _ inside.2 inner inOther) _ _
    · exact fun inner inOther =>
        Function.update_of_ne (apart _ inside.1 inner inOther) _ _

/-- A family without a node. -/
theorem unlink
    (rings : Rings next prev heads chains)
    (isHead : heads head)
    (member : node ∈ head :: chains head)
    (alone : node = head → chains head = []) :
    Rings (Function.update next (prev node) (next node))
      (Function.update prev (next node) (prev node))
      (fun other => heads other ∧ other ≠ node)
      (fun other => (chains other).erase node) := by
  have subset : ∀ other, other :: (chains other).erase node ⊆
      other :: chains other := fun other =>
    List.cons_subset_cons other List.erase_subset
  refine ⟨?_, ?_, ?_⟩
  · rintro other ⟨isOther, different⟩
    exact rings.ring_unlink isHead member alone isOther different
  · rintro other ⟨isOther, different⟩
    have nodup := rings.nodup other isOther
    exact nodup.sublist (List.Sublist.cons_cons other List.erase_sublist)
  · rintro left right inside ⟨isLeft, _⟩ ⟨isRight, _⟩ inLeft inRight
    exact rings.apart left right inside isLeft isRight (subset _ inLeft)
      (subset _ inRight)

/-- A node that is unlinked from a family is in none of its rings. -/
theorem outside_unlink
    {other : α}
    (rings : Rings next prev heads chains)
    (isOther : heads other)
    (different : other ≠ node) :
    node ∉ other :: (chains other).erase node := by
  rw [List.mem_cons, not_or]
  exact ⟨different.symm,
    List.Nodup.not_mem_erase (rings.nodup other isOther).of_cons⟩

/-- A family with another node right behind one of its heads. -/
theorem insertBehind
    (rings : Rings next prev heads chains)
    (isHead : heads head)
    (outside : ∀ other, heads other → node ∉ other :: chains other) :
    Rings
      (Function.update (Function.update next node (next head)) head node)
      (Function.update (Function.update prev node head) (next head) node)
      heads
      (fun other => if other = head then node :: chains head
        else chains other) := by
  have inside := (rings.ring head isHead).links_mem List.mem_cons_self
  have notHead := outside head isHead
  have member : ∀ {other inner}, inner ∈ other :: (if other = head
      then node :: chains head else chains other) →
      inner ∈ other :: chains other ∨ inner = node ∧ other = head := by
    intro other inner inRing
    by_cases same : other = head
    · subst same
      simp at inRing ⊢
      tauto
    · rw [if_neg same] at inRing
      exact .inl inRing
  refine ⟨?_, ?_, ?_⟩
  · intro other isOther
    by_cases same : other = head
    · subst same
      rw [if_pos rfl]
      exact (rings.ring other isHead).insertBehind (rings.nodup other isHead)
        notHead
    · have apart : ∀ inner ∈ head :: chains head,
          ∀ inner' ∈ other :: chains other, inner' ≠ inner := by
        rintro inner here _ there rfl
        exact same (rings.apart other head _ isOther isHead there here)
      rw [if_neg same]
      apply (rings.ring other isOther).congr
      · intro inner inOther
        rw [Function.update_of_ne, Function.update_of_ne]
        · exact ne_of_mem_of_not_mem inOther (outside other isOther)
        · exact apart head List.mem_cons_self inner inOther
      · intro inner inOther
        rw [Function.update_of_ne, Function.update_of_ne]
        · exact ne_of_mem_of_not_mem inOther (outside other isOther)
        · exact apart _ inside.1 inner inOther
  · intro other isOther
    by_cases same : other = head
    · subst same
      rw [if_pos rfl]
      have nodup := rings.nodup other isOther
      simp at nodup notHead ⊢
      tauto
    · rw [if_neg same]
      exact rings.nodup other isOther
  · intro left right inner isLeft isRight inLeft inRight
    rcases member inLeft with before | ⟨isNode, same⟩ <;>
      rcases member inRight with before' | ⟨isNode', same'⟩
    · exact rings.apart left right inner isLeft isRight before before'
    · exact absurd (isNode' ▸ before) (outside left isLeft)
    · exact absurd (isNode ▸ before') (outside right isRight)
    · exact same.trans same'.symm

/-- A family in which a node is unlinked from its ring and linked again right
behind a head. -/
theorem moveBehind
    {owner : α}
    {next' prev' : α → α}
    (rings : Rings next prev heads chains)
    (isHead : heads head)
    (different : head ≠ node)
    (isOwner : heads owner)
    (member : node ∈ owner :: chains owner)
    (alone : node = owner → chains owner = [])
    (nextUnlinked : next' = Function.update next (prev node) (next node))
    (prevUnlinked : prev' = Function.update prev (next node) (prev node)) :
    Rings
      (Function.update (Function.update next' node (next' head)) head node)
      (Function.update (Function.update prev' node head) (next' head) node)
      (fun other => heads other ∧ other ≠ node)
      (movedBehind chains head node) := by
  subst nextUnlinked prevUnlinked
  apply (rings.unlink isOwner member alone).insertBehind ⟨isHead, different⟩
  rintro other ⟨isOther, notNode⟩
  exact rings.outside_unlink isOther notNode

/-- A node that is first behind a head is there already. -/
theorem moveBehind_first
    (rings : Rings next prev heads chains)
    (isHead : heads head)
    (different : head ≠ node)
    (first : next head = node) :
    Rings next prev (fun other => heads other ∧ other ≠ node)
      (movedBehind chains head node) := by
  have ring := rings.ring head isHead
  have member : node ∈ chains head := by
    have inside := (ring.links_mem List.mem_cons_self).1
    rw [first] at inside
    exact (List.mem_cons.mp inside).resolve_left different.symm
  have ⟨rest, isChain⟩ : ∃ rest, chains head = node :: rest := by
    obtain ⟨second, rest, isChain⟩ :=
      List.exists_cons_of_ne_nil (List.ne_nil_of_mem member)
    rw [IsRing, isChain] at ring
    have edge : next head = second := (List.isChain_cons_cons.mp ring).1.1
    exact ⟨rest, by rw [isChain, ← edge, first]⟩
  have same : ∀ other, heads other →
      movedBehind chains head node other = chains other := by
    intro other isOther
    rw [movedBehind]
    split
    · next isHead => rw [isHead, isChain, List.erase_cons_head]
    · next notHead =>
      apply List.erase_of_not_mem
      exact fun inOther => notHead (rings.apart other head node isOther isHead
        (List.mem_cons_of_mem other inOther)
        (List.mem_cons_of_mem head member))
  exact rings.congr (fun other => And.left)
    fun other isOther => same other isOther.1

end Rings

end NanoClr
