import Mathlib.Algebra.Ring.Int.Defs
import Mathlib.Algebra.Ring.Nat
import Mathlib.Data.List.Nodup
import Mathlib.Tactic.Common

/-!
# Slot tables

The methods of a class and of its bases share slots. A method takes the slot of
the method that it overrides, the newest one of its kind, or opens one of its
own; what a call of a slot runs is the method that took it last.
-/

namespace NanoClr

namespace SlotTable

variable {μ κ : Type}

section Table

variable [DecidableEq κ] (kind : μ → κ) (newSlot : μ → Bool)

/-- A method takes the newest slot of its kind; where there is none it opens
one. Newer slots come first, and in a slot newer methods. -/
def override (method : μ) : List (List μ) → List (List μ)
  | [] => [[method]]
  | slot :: slots =>
      if slot.head?.map kind = some (kind method) then
        (method :: slot) :: slots
      else
        slot :: override method slots

/-- A method comes to the table. -/
def place (method : μ) (slots : List (List μ)) : List (List μ) :=
  if newSlot method then [method] :: slots else override kind method slots

/-- The slots of methods that are listed from a class up through its bases. -/
def slotTable (methods : List μ) : List (List μ) :=
  methods.foldr (place kind newSlot) []

end Table

section Slots

variable
  {kind : μ → κ}
  {newSlot : μ → Bool}
  {method : μ}
  {methods slot : List μ}
  {slots : List (List μ)}

/-- A slot holds methods of one kind, and at least one. -/
def OneKind (kind : μ → κ) (slot : List μ) : Prop :=
  ∃ first ∈ slot.head?, ∀ method ∈ slot, kind method = kind first

theorem oneKind_singleton (method : μ) : OneKind kind [method] :=
  ⟨method, rfl, by simp⟩

variable [DecidableEq κ]

/-- A method that overrides is in front of a slot of its kind or alone. -/
theorem mem_override
    (member : slot ∈ override kind method slots) :
    slot ∈ slots ∨ slot = [method] ∨
      ∃ old ∈ slots, slot = method :: old ∧
        old.head?.map kind = some (kind method) := by
  induction slots with
  | nil => exact .inr (.inl (List.mem_singleton.mp member))
  | cons first others inductionHypothesis =>
      rw [override] at member
      split at member
      case isTrue sameKind =>
        rcases List.mem_cons.mp member with rfl | isOther
        · exact .inr (.inr ⟨first, List.mem_cons_self, rfl, sameKind⟩)
        · exact .inl (List.mem_cons_of_mem _ isOther)
      case isFalse =>
        rcases List.mem_cons.mp member with rfl | later
        · exact .inl List.mem_cons_self
        · rcases inductionHypothesis later with
            isOld | isAlone | ⟨old, isOld, rest⟩
          · exact .inl (List.mem_cons_of_mem _ isOld)
          · exact .inr (.inl isAlone)
          · exact .inr (.inr ⟨old, List.mem_cons_of_mem _ isOld, rest⟩)

theorem mem_place
    (member : slot ∈ place kind newSlot method slots) :
    slot ∈ slots ∨ slot = [method] ∨
      ∃ old ∈ slots, slot = method :: old ∧
        old.head?.map kind = some (kind method) := by
  rw [place] at member
  split at member
  · rcases List.mem_cons.mp member with isNew | isOld
    · exact .inr (.inl isNew)
    · exact .inl isOld
  · exact mem_override member

/-- The methods of a slot are of one kind. -/
theorem slotTable_oneKind
    (member : slot ∈ slotTable kind newSlot methods) : OneKind kind slot := by
  induction methods generalizing slot with
  | nil => cases member
  | cons method methods inductionHypothesis =>
      rcases mem_place member with isOld | rfl | ⟨old, isOld, rfl, sameKind⟩
      · exact inductionHypothesis isOld
      · exact oneKind_singleton method
      · obtain ⟨first, isFirst, ofKind⟩ := inductionHypothesis isOld
        rw [Option.mem_def.mp isFirst, Option.map_some, Option.some.injEq]
          at sameKind
        refine ⟨method, rfl, List.forall_mem_cons.mpr ⟨rfl, ?_⟩⟩
        exact fun other isOther => (ofKind other isOther).trans sameKind

/-- A slot lists its methods in the order of the classes. -/
theorem slotTable_sublist
    (member : slot ∈ slotTable kind newSlot methods) :
    slot.Sublist methods := by
  induction methods generalizing slot with
  | nil => cases member
  | cons method methods inductionHypothesis =>
      rcases mem_place member with isOld | rfl | ⟨old, isOld, rfl, _⟩
      · exact (inductionHypothesis isOld).cons method
      · exact List.singleton_sublist.mpr List.mem_cons_self
      · exact (inductionHypothesis isOld).cons_cons method

theorem exists_override (method : μ) (slots : List (List μ)) :
    ∃ slot ∈ override kind method slots, method ∈ slot := by
  induction slots with
  | nil => exact ⟨[method], by simp [override], by simp⟩
  | cons first others inductionHypothesis =>
      rw [override]
      split
      · exact ⟨_, List.mem_cons_self, List.mem_cons_self⟩
      · obtain ⟨slot, member, isIn⟩ := inductionHypothesis
        exact ⟨slot, List.mem_cons_of_mem _ member, isIn⟩

/-- What is in a slot stays in one when another method overrides. -/
theorem exists_override_of_mem
    {other : μ}
    (member : slot ∈ slots)
    (isIn : other ∈ slot) :
    ∃ later ∈ override kind method slots, other ∈ later := by
  induction slots with
  | nil => cases member
  | cons first others inductionHypothesis =>
      rw [override]
      split
      · rcases List.mem_cons.mp member with rfl | isOther
        · exact ⟨_, List.mem_cons_self, List.mem_cons_of_mem _ isIn⟩
        · exact ⟨slot, List.mem_cons_of_mem _ isOther, isIn⟩
      · rcases List.mem_cons.mp member with rfl | isOther
        · exact ⟨slot, List.mem_cons_self, isIn⟩
        · obtain ⟨later, isLater, isIn⟩ := inductionHypothesis isOther
          exact ⟨later, List.mem_cons_of_mem _ isLater, isIn⟩

/-- Each method has a slot. -/
theorem exists_slot
    (member : method ∈ methods) :
    ∃ slot ∈ slotTable kind newSlot methods, method ∈ slot := by
  induction methods with
  | nil => cases member
  | cons first methods inductionHypothesis =>
      rw [slotTable, List.foldr_cons, place]
      rcases List.mem_cons.mp member with rfl | isLater
      · split
        · exact ⟨_, List.mem_cons_self, List.mem_cons_self⟩
        · exact exists_override method _
      · obtain ⟨slot, isSlot, isIn⟩ := inductionHypothesis isLater
        split
        · exact ⟨slot, List.mem_cons_of_mem _ isSlot, isIn⟩
        · exact exists_override_of_mem isSlot isIn

end Slots

/-! ## The slot of a method -/

section SlotOf

variable [DecidableEq μ] [DecidableEq κ] (kind : μ → κ) (newSlot : μ → Bool)

/-- The slot of a method; none where it is not among the methods. -/
def slotOf (methods : List μ) (method : μ) : List μ :=
  ((slotTable kind newSlot methods).find? fun slot =>
    decide (method ∈ slot)).getD []

variable {kind newSlot} {methods : List μ} {method : μ}

/-- The slot of a method of the list is one of the table. -/
theorem slotOf_mem_slotTable
    (member : method ∈ methods) :
    slotOf kind newSlot methods method ∈ slotTable kind newSlot methods ∧
      method ∈ slotOf kind newSlot methods method := by
  have has : ∃ slot ∈ slotTable kind newSlot methods, method ∈ slot :=
    exists_slot member
  obtain ⟨slot, isSlot, isIn⟩ := has
  cases found : (slotTable kind newSlot methods).find? fun slot =>
      decide (method ∈ slot) with
  | none =>
      exact absurd (decide_eq_true isIn)
        (List.find?_eq_none.mp found _ isSlot)
  | some slot =>
      rw [slotOf, found, Option.getD_some]
      have isIn := List.find?_some found
      exact ⟨List.mem_of_find?_eq_some found, of_decide_eq_true isIn⟩

end SlotOf

/-- Where the first of some methods is in a slot that they contain in their
order, it is the first of the slot. -/
theorem eq_of_sublist
    {first head : μ}
    {others slot : List μ}
    (distinct : (first :: others).Nodup)
    (sublist : (head :: slot).Sublist (first :: others))
    (member : first ∈ head :: slot) : head = first := by
  cases sublist with
  | cons _ later =>
      exact absurd (later.mem member) (List.nodup_cons.mp distinct).1
  | cons_cons _ _ => rfl

end SlotTable

end NanoClr
