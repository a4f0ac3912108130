import NanoClr.TypeSystem.ObjectCreation

/-!
# Layout and creation agree

The slots that the link assigns and those that `NewObject` fills, in a
hierarchy of classes over any assemblies.
-/

namespace NanoClr

namespace TypeSystem

open HeapBlock HeapCluster

/-- The words of a slot belong to a region in use. -/
def ObjectHeap.SlotInUse (heap : ObjectHeap) (slot : Nat) : Prop :=
  ∀ address, (Region.slot slot).Holds address → heap.InUse address

theorem ObjectHeap.inUse_append
    {heap heap' : ObjectHeap}
    {regions : List Region}
    {address : Nat}
    (used : heap'.used = regions ++ heap.used)
    (inUse : heap.InUse address) : heap'.InUse address := by
  obtain ⟨region, member, held⟩ := inUse
  refine ⟨region, ?_, held⟩
  rw [used]
  exact List.mem_append_right regions member

namespace FieldHierarchy

/-! ## One slot -/

/-- A slot has got the zero value of its field, and nothing else that is in
use has changed. -/
structure SlotInitialized
    (hierarchy : FieldHierarchy)
    (heap heap' : ObjectHeap)
    (slot : Nat)
    (field : FieldIndex)
    (regions : List Region) : Prop where
  used : heap'.used = regions ++ heap.used
  keeps : ∀ address, heap.InUse address →
    ¬ (Region.slot slot).Holds address →
      heap'.memory address = heap.memory address
  value : ∃ res, hierarchy.signature field = some res ∧
    (hierarchy.IsStructure res → hierarchy.Loaded res.m_cls ∧ ∃ ptr,
      SlotHolds heap'.memory slot .object ptr ∧
        hierarchy.ZeroInstance heap'.memory ptr res.m_cls regions) ∧
    (¬ hierarchy.IsStructure res → regions = [] ∧
      SlotHolds heap'.memory slot (hierarchy.zeroDataType res) 0)

/-- What `NewObject` leaves in the reference and on the heap. -/
structure Creates
    (hierarchy : FieldHierarchy)
    (heap heap' : ObjectHeap)
    (reference : Nat)
    (inst : TypeIndex)
    (regions : List Region) : Prop where
  used : heap'.used = regions ++ heap.used
  keeps : ∀ address, heap.InUse address → address ≠ reference →
    address ≠ reference + 1 → heap'.memory address = heap.memory address
  basic : c_Reference (hierarchy.m_target inst).dataType = false →
    regions = [] ∧
      dataType heap'.memory reference =
        some (hierarchy.m_target inst).dataType ∧
      dataSize heap'.memory reference = 1 ∧
      heap'.memory (reference + 1) = 0
  instance_ : (hierarchy.m_target inst).dataType = .classType ∨
      (hierarchy.m_target inst).dataType = .valueType →
    dataType heap'.memory reference = some .object ∧
      dataSize heap'.memory reference = 1 ∧
      hierarchy.ZeroInstance heap'.memory (heap'.memory (reference + 1)) inst
        regions

variable {hierarchy : FieldHierarchy} {allocator : Allocator}
  {heap heap' : ObjectHeap} {cls inst : TypeIndex} {field : FieldIndex}
  {fields : List FieldIndex} {slot obj reference : Nat}
  {regions : List Region}
  {new : ObjectHeap → Nat → TypeIndex → Outcome}
  {initialize_ : ObjectHeap → Nat → FieldIndex → Outcome}

/-- A field is a field of some class above, where structures are not nested
deeper. -/
theorem exists_owner (declared : field ∈ hierarchy.declaredFields cls) :
    ∃ owner index, field = hierarchy.ownField owner index ∧
      index < (hierarchy.m_target owner).iFields_Num.toNat ∧
      hierarchy.nesting owner ≤ hierarchy.nesting cls := by
  induction cls using declaredFields.induct hierarchy with
  | case1 cls inductionHypothesis =>
      rw [declaredFields_eq, List.mem_append] at declared
      cases declared with
      | inl inherited =>
          cases above : (hierarchy.m_target cls).extends_ with
          | none =>
              rw [inheritedFields_none above] at inherited
              cases inherited
          | some parent =>
              rw [inheritedFields_some above] at inherited
              obtain ⟨owner, index, same, inside, nested⟩ :=
                inductionHypothesis parent above inherited
              exact ⟨owner, index, same, inside,
                nested.trans (hierarchy.nesting_extends above)⟩
      | inr own =>
          obtain ⟨index, member, rfl⟩ := List.mem_map.mp own
          exact ⟨cls, index, rfl, List.mem_range.mp member, Nat.le_refl _⟩

theorem initializeSlot_ends
    {res : SignatureElement}
    {dt : DataType}
    (read : hierarchy.signature field = some res)
    (plain_ : ¬ hierarchy.IsStructure res)
    (tag : hierarchy.zeroDataType res = dt) :
    (initializeSlot heap slot dt).Ends fun heap' =>
      ∃ regions, hierarchy.SlotInitialized heap heap' slot field regions := by
  apply Outcome.ends_ok
  refine ⟨[], rfl, ?_, res, read, ?_, ?_⟩
  · intro address _ outside
    exact clearData_other outside
  · intro struct_
    exact absurd struct_ plain_
  · intro _
    rw [tag]
    exact ⟨rfl, clearData_holds⟩

/-- One call of `InitializeReference`, where `NewObject` creates the
structures that are nested less deeply. -/
theorem initializeReference_ends
    (nested : ∀ heap reference inst, hierarchy.Loaded inst →
      hierarchy.nesting inst < hierarchy.nesting cls →
        heap.SlotInUse reference →
          (new heap reference inst).Ends fun heap' =>
            ∃ regions, hierarchy.Creates heap heap' reference inst regions)
    (declared : field ∈ hierarchy.declaredFields cls)
    (inUse : heap.SlotInUse slot)
    (cleared : heap.memory (slot + 2) = 0) :
    (hierarchy.InitializeReference new heap slot field).Ends fun heap' =>
      ∃ regions, hierarchy.SlotInitialized heap heap' slot field regions := by
  rw [InitializeReference]
  split
  case h_1 => exact Outcome.ends_failed (by decide)
  case h_2 res read =>
    split
    case isTrue array =>
      apply initializeSlot_ends read
      · intro struct_
        exact absurd struct_.1 (by omega)
      · rw [zeroDataType, if_pos array]
    case isFalse flat =>
      split
      case isTrue value =>
        split
        case isTrue enum =>
          apply initializeSlot_ends read
          · intro struct_
            exact struct_.2.2.1 enum
          · rw [zeroDataType, if_neg flat, if_pos value]
        case isFalse notEnum =>
          obtain ⟨owner, index, rfl, inside, above⟩ := exists_owner declared
          have ⟨loaded, deeper, block⟩ := hierarchy.nesting_field inside read
            value (by omega) notEnum
          apply (nested heap slot res.m_cls loaded (by omega) inUse).mono
          intro heap' ⟨regions, creates⟩
          refine ⟨regions, creates.used, ?_, res, read, ?_, ?_⟩
          · intro address used outside
            apply creates.keeps address used
            · rintro rfl
              exact outside Region.holds_slot_start
            · rintro rfl
              exact outside (Region.holds_slot (by decide))
          · intro struct_
            have ⟨tag, size, zero⟩ := creates.instance_ (.inr struct_.2.2.2)
            refine ⟨loaded, _, ⟨tag, size, rfl, ?_⟩, zero⟩
            rw [creates.keeps _ (inUse _ (Region.holds_slot (by decide)))
              (by omega) (by omega)]
            exact cleared
          · intro plain_
            have basic : c_Reference
                (hierarchy.m_target res.m_cls).dataType = false := by
              rw [← Bool.not_eq_true]
              intro reference
              exact plain_ ⟨by omega, value, notEnum, block reference⟩
            have ⟨none_, tag, size, low⟩ := creates.basic basic
            refine ⟨none_, ?_, size, low, ?_⟩
            · rw [zeroDataType, if_neg flat, if_pos value]
              exact tag
            · rw [creates.keeps _ (inUse _ (Region.holds_slot (by decide)))
                (by omega) (by omega)]
              exact cleared
      case isFalse notValue =>
        have plain_ : ¬ hierarchy.IsStructure res := by
          intro struct_
          exact notValue struct_.2.1
        split
        case isTrue reference =>
          apply initializeSlot_ends read plain_
          rw [zeroDataType, if_neg flat, if_neg notValue, if_pos reference]
        case isFalse number =>
          apply initializeSlot_ends read plain_
          rw [zeroDataType, if_neg flat, if_neg notValue, if_neg number]

/-! ## All slots -/

/-- The last fields of an object have been initialized. -/
structure Filled
    (hierarchy : FieldHierarchy)
    (heap heap' : ObjectHeap)
    (obj : Nat)
    (fields : List FieldIndex)
    (regions : List Region) : Prop where
  used : heap'.used = regions ++ heap.used
  keeps : ∀ address, heap.InUse address →
    (∀ field ∈ fields,
      ¬ (Region.slot (hierarchy.slotOf obj field)).Holds address) →
    heap'.memory address = heap.memory address
  zero : hierarchy.ZeroFields heap'.memory obj fields regions

/-- The slots of different fields share no words. -/
theorem slots_apart
    {other : FieldIndex}
    (different : hierarchy.m_offset field ≠ hierarchy.m_offset other)
    {address : Nat}
    (held : (Region.slot (hierarchy.slotOf obj other)).Holds address) :
    ¬ (Region.slot (hierarchy.slotOf obj field)).Holds address := by
  simp only [Region.Holds, Region.slot, slotOf] at held ⊢
  omega

section Fill

variable (fits : ∀ cls, hierarchy.Loaded cls →
  (hierarchy.declaredFields cls).length < 0x10000)

include fits in
/-- One more field. -/
theorem Filled.step
    {heap₁ heap₂ : ObjectHeap}
    {inner : List Region}
    (filled : hierarchy.Filled heap heap₁ obj fields inner)
    (initialized : hierarchy.SlotInitialized heap₁ heap₂
      (hierarchy.slotOf obj field) field regions)
    (loaded : hierarchy.Loaded cls)
    (declared : ∀ other ∈ field :: fields,
      other ∈ hierarchy.declaredFields cls)
    (different : ∀ other ∈ fields,
      hierarchy.m_offset field ≠ hierarchy.m_offset other)
    (held : hierarchy.objectRegion obj cls ∈ heap.used) :
    hierarchy.Filled heap heap₂ obj (field :: fields) (regions ++ inner) := by
  rw [List.forall_mem_cons] at declared
  have inObject : ∀ {address}, (hierarchy.objectRegion obj cls).Holds address →
      heap₁.InUse address := by
    intro address holds
    exact ObjectHeap.inUse_append filled.used ⟨_, held, holds⟩
  have rest : hierarchy.ZeroFields heap₂.memory obj fields inner := by
    apply filled.zero.unchanged fits
    · intro other member address holds
      apply initialized.keeps
      · exact inObject
          (slotOf_inside loaded (fits _ loaded) (declared.2 other member)
            holds).2
      · exact slots_apart (different other member) holds
    · intro region member address holds
      apply initialized.keeps
      · refine ⟨region, ?_, holds⟩
        rw [filled.used]
        exact List.mem_append_left _ member
      · intro inSlot
        have apart := heap₁.apart
        rw [filled.used, List.pairwise_append] at apart
        exact apart.2.2 region member _ held address holds
          (slotOf_inside loaded (fits _ loaded) declared.1 inSlot).2
  refine ⟨?_, ?_, ?_⟩
  · rw [initialized.used, filled.used, List.append_assoc]
  · intro address inUse outside
    rw [List.forall_mem_cons] at outside
    rw [initialized.keeps address
      (ObjectHeap.inUse_append filled.used inUse) outside.1]
    exact filled.keeps address inUse outside.2
  · obtain ⟨res, read, ofStructure, ofPlain⟩ := initialized.value
    by_cases struct_ : hierarchy.IsStructure res
    · obtain ⟨loaded, ptr, holds, header, structures, rfl, zero⟩ :=
        ofStructure struct_
      exact .struct read struct_ loaded holds header zero rest
    · obtain ⟨rfl, holds⟩ := ofPlain struct_
      exact .plain read struct_ holds rest

include fits in
/-- The fields that are still to be initialized, last first. -/
theorem initializeEach_ends
    (initialized : ∀ heap slot field, field ∈ hierarchy.declaredFields cls →
      heap.SlotInUse slot → heap.memory (slot + 2) = 0 →
        (initialize_ heap slot field).Ends fun heap' =>
          ∃ regions, hierarchy.SlotInitialized heap heap' slot field regions)
    (loaded : hierarchy.Loaded cls)
    (held : hierarchy.objectRegion obj cls ∈ heap.used)
    (cleared : ∀ field ∈ hierarchy.declaredFields cls,
      heap.memory (hierarchy.slotOf obj field + 2) = 0)
    {left : List FieldIndex}
    (parts : left.reverse ++ fields = hierarchy.declaredFields cls)
    (filled : hierarchy.Filled heap heap' obj fields regions) :
    (hierarchy.initializeEach initialize_ obj left heap').Ends fun heap' =>
      ∃ regions, hierarchy.Filled heap heap' obj
        (hierarchy.declaredFields cls) regions := by
  induction left generalizing fields heap' regions with
  | nil =>
      apply Outcome.ends_ok
      rw [← parts]
      exact ⟨regions, filled⟩
  | cons field left inductionHypothesis =>
      rw [List.reverse_cons, List.append_assoc, List.singleton_append] at parts
      have declared : ∀ other ∈ field :: fields,
          other ∈ hierarchy.declaredFields cls := by
        intro other member
        rw [← parts]
        exact List.mem_append_right _ member
      have different : ∀ other ∈ fields,
          hierarchy.m_offset field ≠ hierarchy.m_offset other := by
        have distinct := ((layoutExact_iff loaded).mpr (fits _ loaded)).distinct
        rw [← parts, List.map_append, List.map_cons, List.nodup_append,
          List.nodup_cons] at distinct
        intro other member same
        apply distinct.2.1.1
        rw [same]
        exact List.mem_map_of_mem member
      have here := declared field List.mem_cons_self
      have inObject : ∀ address,
          (Region.slot (hierarchy.slotOf obj field)).Holds address →
            heap.InUse address := by
        intro address holds
        exact ⟨_, held, (slotOf_inside loaded (fits _ loaded) here holds).2⟩
      rw [initializeEach]
      apply (initialized heap' _ field here ?_ ?_).check
      · rintro heap₂ ⟨structures, done⟩
        exact inductionHypothesis parts
          (filled.step fits done loaded declared different held)
      · intro address holds
        exact ObjectHeap.inUse_append filled.used (inObject address holds)
      · have high : (Region.slot (hierarchy.slotOf obj field)).Holds
            (hierarchy.slotOf obj field + 2) := Region.holds_slot (by decide)
        refine (filled.keeps _ (inObject _ high) ?_).trans (cleared field here)
        intro other member holds
        exact slots_apart (different other member) holds high

include fits in
theorem initializeDeclared_ends
    (initialized : ∀ heap slot field, field ∈ hierarchy.declaredFields cls →
      heap.SlotInUse slot → heap.memory (slot + 2) = 0 →
        (initialize_ heap slot field).Ends fun heap' =>
          ∃ regions, hierarchy.SlotInitialized heap heap' slot field regions)
    (loaded : hierarchy.Loaded cls)
    (held : hierarchy.objectRegion obj cls ∈ heap.used)
    (cleared : ∀ field ∈ hierarchy.declaredFields cls,
      heap.memory (hierarchy.slotOf obj field + 2) = 0) :
    (hierarchy.initializeEach initialize_ obj
        (hierarchy.declaredFields cls).reverse heap).Ends fun heap' =>
      ∃ regions, hierarchy.Filled heap heap' obj
        (hierarchy.declaredFields cls) regions := by
  have none_ : hierarchy.Filled heap heap obj [] [] :=
    ⟨rfl, fun _ _ _ => rfl, .nil⟩
  apply initializeEach_ends fits initialized loaded held cleared _ none_
  rw [List.reverse_reverse, List.append_nil]

end Fill

end FieldHierarchy

end TypeSystem

end NanoClr
