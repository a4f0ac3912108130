import NanoClr.TypeSystem.LayoutAgreement

/-!
# What creating an object leaves alone

Whatever the number of fields, `NewObject` returns, and of the words in use it
changes those of the reference only.
-/

namespace NanoClr

namespace TypeSystem

open HeapBlock HeapCluster

/-- What was in use still is, and has not changed outside of some words. -/
structure ObjectHeap.ChangesOnly
    (heap heap' : ObjectHeap)
    (changed : Region) : Prop where
  used : ∃ regions, heap'.used = regions ++ heap.used
  keeps : ∀ address, heap.InUse address → ¬ changed.Holds address →
    heap'.memory address = heap.memory address

namespace ObjectHeap.ChangesOnly

variable {heap heap₁ heap₂ : ObjectHeap} {changed inner : Region}

theorem inUse
    (changes : heap.ChangesOnly heap₁ changed)
    {address : Nat}
    (used : heap.InUse address) : heap₁.InUse address := by
  obtain ⟨regions, grown⟩ := changes.used
  exact ObjectHeap.inUse_append grown used

theorem trans
    (first : heap.ChangesOnly heap₁ inner)
    (second : heap₁.ChangesOnly heap₂ changed)
    {all : Region}
    (firstInside : ∀ address, inner.Holds address → all.Holds address)
    (secondInside : ∀ address, changed.Holds address → all.Holds address) :
    heap.ChangesOnly heap₂ all := by
  constructor
  · obtain ⟨regions₁, grown₁⟩ := first.used
    obtain ⟨regions₂, grown₂⟩ := second.used
    refine ⟨regions₂ ++ regions₁, ?_⟩
    rw [grown₂, grown₁, List.append_assoc]
  · intro address used outside
    rw [second.keeps address (first.inUse used)
      fun holds => outside (secondInside address holds)]
    exact first.keeps address used
      fun holds => outside (firstInside address holds)

theorem refl (heap : ObjectHeap) (changed : Region) :
    heap.ChangesOnly heap changed :=
  ⟨⟨[], rfl⟩, fun _ _ _ => rfl⟩

end ObjectHeap.ChangesOnly

namespace FieldHierarchy

variable {hierarchy : FieldHierarchy} {allocator : Allocator}
  {heap heap' : ObjectHeap} {cls inst : TypeIndex} {obj reference slot : Nat}
  {initialize_ : ObjectHeap → Nat → FieldIndex → Outcome}
  {new : ObjectHeap → Nat → TypeIndex → Outcome}

/-- A slot that holds no structure. -/
theorem initializeSlot_changesOnly (dt : DataType) :
    (initializeSlot heap slot dt).Ends fun heap' =>
      heap.ChangesOnly heap' (Region.slot slot) := by
  apply Outcome.ends_ok
  refine ⟨⟨[], rfl⟩, ?_⟩
  intro address _ outside
  exact clearData_other outside

/-! ## The fields -/

/-- One call for a field of a class above. -/
theorem initializeReference_changesOnly
    (nested : ∀ heap reference inst,
      hierarchy.nesting inst < hierarchy.nesting cls →
        heap.SlotInUse reference →
          (new heap reference inst).Ends fun heap' =>
            heap.ChangesOnly heap' (Region.slot reference))
    {owner : TypeIndex}
    {index : Nat}
    (inside : index < (hierarchy.m_target owner).iFields_Num.toNat)
    (above : hierarchy.nesting owner ≤ hierarchy.nesting cls)
    (inUse : heap.SlotInUse slot) :
    (hierarchy.InitializeReference new heap slot
        (hierarchy.ownField owner index)).Ends fun heap' =>
      heap.ChangesOnly heap' (Region.slot slot) := by
  rw [InitializeReference]
  split
  case h_1 => exact Outcome.ends_failed (by decide)
  case h_2 res read =>
    split
    case isTrue => exact initializeSlot_changesOnly _
    case isFalse flat =>
      split
      case isTrue value =>
        split
        case isTrue => exact initializeSlot_changesOnly _
        case isFalse notEnum =>
          obtain ⟨_, deeper, _⟩ := hierarchy.nesting_field inside read value
            (by omega) notEnum
          exact nested heap slot res.m_cls (by omega) inUse
      case isFalse =>
        split
        case isTrue => exact initializeSlot_changesOnly _
        case isFalse => exact initializeSlot_changesOnly _

/-- A place in the walk: fields of a class above are left. -/
structure WalkingAbove
    (hierarchy : FieldHierarchy)
    (cls instSub : TypeIndex)
    (clsFields : Nat)
    (target : Option FieldIndex) : Prop where
  above : hierarchy.nesting instSub ≤ hierarchy.nesting cls
  own : clsFields ≤ (hierarchy.m_target instSub).iFields_Num.toNat
  follows : hierarchy.Follows instSub clsFields target

/-- Going up to a class with fields leads to a class above. -/
theorem switchToParents_above
    {instSub : TypeIndex}
    {clsFields : Nat}
    {target : Option FieldIndex}
    (walking : hierarchy.WalkingAbove cls instSub clsFields target)
    {result : TypeIndex × Nat × Option FieldIndex}
    (found : hierarchy.switchToParents instSub clsFields target =
      some result) :
    hierarchy.WalkingAbove cls result.1 result.2.1 result.2.2 ∧
      result.2.1 ≠ 0 := by
  induction instSub, clsFields, target using
      switchToParents.induct hierarchy with
  | case1 instSub target parent above inductionHypothesis =>
      rw [switchToParents, if_pos rfl] at found
      split at found
      case h_1 parent' above' =>
        rw [above] at above'
        cases above'
        refine inductionHypothesis ⟨?_, Nat.le_refl _, ?_⟩ found
        · exact (hierarchy.nesting_extends above).trans walking.above
        · intro record reached
          cases reached
      case h_2 => cases found
  | case2 instSub target top =>
      rw [switchToParents, if_pos rfl] at found
      split at found
      case h_1 parent above =>
        rw [above] at top
        cases top
      case h_2 => cases found
  | case3 instSub clsFields target left =>
      rw [switchToParents, if_neg left] at found
      cases found
      exact ⟨walking, left⟩

/-- The slots of an object up to a number, behind its descriptor. -/
def slotsUpTo (obj slots : Nat) : Region := ⟨obj + 3, 3 * slots⟩

/-- The loop over the slots changes the slots only. -/
theorem initializeFields_changesOnly
    (initialized : ∀ heap slot owner index,
      index < (hierarchy.m_target owner).iFields_Num.toNat →
        hierarchy.nesting owner ≤ hierarchy.nesting cls →
          heap.SlotInUse slot →
            (initialize_ heap slot (hierarchy.ownField owner index)).Ends
              fun heap' => heap.ChangesOnly heap' (Region.slot slot))
    {slots : Nat}
    {instSub : TypeIndex}
    {clsFields : Nat}
    {target : Option FieldIndex}
    (walking : hierarchy.WalkingAbove cls instSub clsFields target)
    (inUse : ∀ address, (slotsUpTo obj slots).Holds address →
      heap.InUse address) :
    (hierarchy.initializeFields initialize_ obj slots instSub clsFields target
        heap).Ends fun heap' =>
      heap.ChangesOnly heap' (slotsUpTo obj slots) := by
  induction slots generalizing instSub clsFields target heap with
  | zero => exact Outcome.ends_ok (.refl _ _)
  | succ slots inductionHypothesis =>
      rw [initializeFields]
      split
      case h_1 => exact Outcome.ends_failed (by decide)
      case h_2 instSub' clsFields' target' found =>
        obtain ⟨goesOn, some_⟩ := switchToParents_above walking found
        obtain ⟨index, rfl⟩ := Nat.exists_eq_succ_of_ne_zero some_
        have lower : ∀ address, (slotsUpTo obj slots).Holds address →
            (slotsUpTo obj (slots + 1)).Holds address := by
          intro address holds
          simp only [Region.Holds, slotsUpTo] at holds ⊢
          omega
        have last : ∀ address,
            (Region.slot (obj + 3 * (slots + 1))).Holds address →
              (slotsUpTo obj (slots + 1)).Holds address := by
          intro address holds
          simp only [Region.Holds, Region.slot, slotsUpTo] at holds ⊢
          omega
        simp only [fieldDef_eq goesOn.follows]
        have first := initialized heap (obj + 3 * (slots + 1)) instSub' index
          (Nat.lt_of_succ_le goesOn.own) goesOn.above
          fun address holds => inUse address (last address holds)
        apply first.check
        intro heap₁ changes
        have before : hierarchy.WalkingAbove cls instSub' index
            (some (hierarchy.ownField instSub' index)) := by
          refine ⟨goesOn.above, Nat.le_of_succ_le goesOn.own, ?_⟩
          intro record reached
          cases reached
          rfl
        apply (inductionHypothesis before fun address holds =>
          changes.inUse (inUse address (lower address holds))).mono
        intro heap₂ rest
        exact changes.trans rest last lower

/-! ## The object -/

/-- The reference is to an instance in a block that was not in use. -/
structure Instantiated
    (hierarchy : FieldHierarchy)
    (heap heap' : ObjectHeap)
    (reference : Nat)
    (inst : TypeIndex) : Prop where
  tag : dataType heap'.memory reference = some .object
  size : dataSize heap'.memory reference = 1
  header : hierarchy.InstanceHeader heap'.memory
    (heap'.memory (reference + 1)) inst
  used : hierarchy.objectRegion (heap'.memory (reference + 1)) inst ∈
    heap'.used
  fresh : ∀ address,
    (hierarchy.objectRegion (heap'.memory (reference + 1)) inst).Holds
        address → ¬ heap.InUse address

/-- What is known of a reference to which `NewObject` was applied. -/
structure Renewed
    (hierarchy : FieldHierarchy)
    (heap heap' : ObjectHeap)
    (reference : Nat)
    (inst : TypeIndex) : Prop where
  changes : heap.ChangesOnly heap' (Region.slot reference)
  instance_ : (hierarchy.m_target inst).dataType = .classType ∨
      (hierarchy.m_target inst).dataType = .valueType →
    hierarchy.Instantiated heap heap' reference inst

theorem Prepared.changesOnly
    (prepared : hierarchy.Prepared heap heap' reference obj inst) :
    heap.ChangesOnly heap' (Region.slot reference) := by
  refine ⟨⟨[_], prepared.used⟩, ?_⟩
  intro address used outside
  apply prepared.keeps address used
  · rintro rfl
    exact outside Region.holds_slot_start
  · rintro rfl
    exact outside (Region.holds_slot (by decide))

/-- The fields have been initialized, and there may be a finalizer. -/
theorem renewed_of_prepared
    {heap₁ heap₂ : ObjectHeap}
    {memory : Memory}
    (inUse : heap.SlotInUse reference)
    (prepared : hierarchy.Prepared heap heap₁ reference obj inst)
    (fields : heap₁.ChangesOnly heap₂
      (slotsUpTo obj (hierarchy.m_totalFields inst)))
    (keeps : heap₂.Keeps memory) :
    hierarchy.Renewed heap (heap₂.withMemory memory) reference inst := by
  have created := prepared.changesOnly
  have outside : ∀ address, heap.InUse address →
      ¬ (slotsUpTo obj (hierarchy.m_totalFields inst)).Holds address := by
    intro address used holds
    apply prepared.apart used
    simp only [Region.Holds, objectRegion, slotsUpTo] at holds ⊢
    omega
  have kept : ∀ address, heap₁.InUse address →
      ¬ (slotsUpTo obj (hierarchy.m_totalFields inst)).Holds address →
        memory address = heap₁.memory address := by
    intro address used behind
    rw [keeps address (fields.inUse used)]
    exact fields.keeps address used behind
  have keptOld : ∀ {address}, heap.InUse address →
      memory address = heap₁.memory address := by
    intro address used
    exact kept address (created.inUse used) (outside address used)
  have tags := tag_of_id
    ((keptOld (inUse _ Region.holds_slot_start)).trans prepared.id)
  have ptr : memory (reference + 1) = obj := by
    rw [keptOld (inUse _ (Region.holds_slot (by decide)))]
    exact prepared.ptr
  constructor
  · constructor
    · obtain ⟨regions, grown⟩ := fields.used
      refine ⟨regions ++ [hierarchy.objectRegion obj inst], ?_⟩
      show heap₂.used = _
      rw [grown, prepared.used, List.append_assoc, List.singleton_append]
    · intro address used notSlot
      exact (keptOld used).trans (created.keeps address used notSlot)
  · intro _
    have block : hierarchy.objectRegion obj inst ∈ heap₁.used := by
      rw [prepared.used]
      exact List.mem_cons_self
    refine ⟨tags.1, tags.2, ?_, ?_, ?_⟩
    · show hierarchy.InstanceHeader memory (memory (reference + 1)) inst
      rw [ptr]
      apply prepared.header.unchanged
      intro address holds
      apply kept address ⟨_, block, header_inside holds⟩
      simp only [Region.Holds, Region.slot, slotsUpTo] at holds ⊢
      omega
    · show hierarchy.objectRegion (memory (reference + 1)) inst ∈ heap₂.used
      rw [ptr]
      obtain ⟨regions, grown⟩ := fields.used
      rw [grown]
      exact List.mem_append_right _ block
    · intro address holds used
      apply prepared.apart used
      have same : (heap₂.withMemory memory).memory (reference + 1) = obj := ptr
      rw [same] at holds
      exact holds

/-- An object of a class, or a structure. -/
theorem createInstance_renews
    (initialized : ∀ heap slot owner index,
      index < (hierarchy.m_target owner).iFields_Num.toNat →
        hierarchy.nesting owner ≤ hierarchy.nesting inst →
          heap.SlotInUse slot →
            (initialize_ heap slot (hierarchy.ownField owner index)).Ends
              fun heap' => heap.ChangesOnly heap' (Region.slot slot))
    (inUse : heap.SlotInUse reference) :
    (hierarchy.createInstance allocator initialize_ heap reference
        (hierarchy.m_target inst).dataType inst).Ends fun heap' =>
      hierarchy.Renewed heap heap' reference inst := by
  rw [createInstance]
  simp only [HB_Object_Fields_Offset, Nat.add_sub_cancel]
  split
  case h_1 => exact Outcome.ends_failed (by decide)
  case h_2 heap' obj found =>
    have prepared := prepared_of_extracted
      (extractHeapBlocksForClassOrValueTypes_some (by omega) found) inUse
    apply (@initializeFields_changesOnly hierarchy _ inst obj initialize_
      initialized _ _ _ none ⟨Nat.le_refl _, Nat.le_refl _, ?_⟩ ?_).check
    · intro heap₂ fields
      split
      case isTrue =>
        rw [Allocator.CreateFinalizer]
        split
        case h_1 => exact Outcome.ends_failed (by decide)
        case h_2 creation _ =>
          exact Outcome.ends_ok
            (renewed_of_prepared inUse prepared fields creation.keeps)
      case isFalse =>
        exact Outcome.ends_ok
          (renewed_of_prepared inUse prepared fields fun _ _ => rfl)
    · intro record reached
      cases reached
    · intro address holds
      refine ⟨hierarchy.objectRegion obj inst, ?_, ?_⟩
      · exact prepared.used ▸ List.mem_cons_self
      · simp only [Region.Holds, objectRegion, slotsUpTo] at holds ⊢
        omega

/-- A reference that was cleared first. -/
theorem Renewed.afterClear
    (renewed : hierarchy.Renewed
      (heap.withMemory (SetObjectReference heap.memory reference 0)) heap'
      reference inst) :
    hierarchy.Renewed heap heap' reference inst where
  changes := by
    refine ⟨renewed.changes.used, ?_⟩
    intro address used outside
    rw [renewed.changes.keeps address used outside]
    apply SetObjectReference_other
    · rintro rfl
      exact outside Region.holds_slot_start
    · rintro rfl
      exact outside (Region.holds_slot (by decide))
  instance_ := by
    intro instance_
    have created := renewed.instance_ instance_
    exact ⟨created.tag, created.size, created.header, created.used,
      created.fresh⟩

/-- `NewObject` returns and changes the reference only; the induction is on the
nesting of structures. -/
theorem newObject_renews
    {nested : Nat}
    (deep : hierarchy.nesting inst < nested)
    (inUse : heap.SlotInUse reference) :
    (hierarchy.newObject allocator nested heap reference inst).Ends
      fun heap' => hierarchy.Renewed heap heap' reference inst := by
  induction nested generalizing heap reference inst with
  | zero => omega
  | succ nested inductionHypothesis =>
      rw [newObject]
      split
      case isTrue => exact Outcome.ends_failed (by decide)
      case isFalse =>
        split
        case isTrue basic =>
          apply Outcome.ends_ok
          refine Renewed.afterClear ⟨⟨⟨[], rfl⟩, ?_⟩, ?_⟩
          · intro address _ outside
            apply setDataId_other
            rintro rfl
            exact outside Region.holds_slot_start
          · intro instance_
            exact absurd basic (instance_reference instance_)
        case isFalse =>
          have creates : (hierarchy.createInstance allocator
                (hierarchy.InitializeReference
                  (hierarchy.newObject allocator nested))
                (heap.withMemory (SetObjectReference heap.memory reference 0))
                reference (hierarchy.m_target inst).dataType inst).Ends
              fun heap' => hierarchy.Renewed heap heap' reference inst := by
            apply (createInstance_renews ?_ ?_).mono
            · intro heap' renewed
              exact renewed.afterClear
            · intro heap slot owner index inside above used
              apply initializeReference_changesOnly _ inside above used
              intro heap reference inner deeper used
              exact (inductionHypothesis (by omega) used).mono
                fun heap' renewed => renewed.changes
            · exact inUse
          split
          case h_1 string =>
            apply Outcome.ends_ok
            refine Renewed.afterClear ⟨.refl _ _, ?_⟩
            intro instance_
            rw [string] at instance_
            simp at instance_
          case h_2 weak =>
            split
            case h_1 => exact Outcome.ends_failed (by decide)
            case h_2 heap₁ weakref found =>
              obtain ⟨used, keeps⟩ :=
                extractHeapBlocksForObjects_some (by decide) found
              apply Outcome.ends_ok
              refine Renewed.afterClear ⟨⟨⟨[_], used⟩, ?_⟩, ?_⟩
              · intro address inUse outside
                refine (SetObjectReference_other ?_ ?_).trans
                  (keeps address inUse)
                · rintro rfl
                  exact outside Region.holds_slot_start
                · rintro rfl
                  exact outside (Region.holds_slot (by decide))
              · intro instance_
                rw [weak] at instance_
                simp at instance_
          case h_3 => exact creates
          case h_4 => exact creates
          case h_5 => exact Outcome.ends_failed (by decide)

end FieldHierarchy

end TypeSystem

end NanoClr
