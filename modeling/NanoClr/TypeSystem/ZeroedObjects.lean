import NanoClr.TypeSystem.FieldWalk

/-!
# Objects that hold nothing yet

What a slot holds when its field has the zero value of its type: the tag of
the type with both words of data cleared, or a reference to a structure of its
own whose fields are zero in turn.
-/

namespace NanoClr

namespace TypeSystem

open HeapBlock HeapCluster

/-! ## Regions that keep their words -/

/-- The three words of a slot. -/
def Region.slot (address : Nat) : Region := ⟨address, 3⟩

/-- The words of a region are what they were. -/
def Unchanged (memory memory' : Memory) (region : Region) : Prop :=
  ∀ address, region.Holds address → memory' address = memory address

theorem Region.holds_slot
    {slot word : Nat}
    (inside : word < 3) : (Region.slot slot).Holds (slot + word) := by
  constructor
  · exact Nat.le_add_right slot word
  · exact Nat.add_lt_add_left inside slot

theorem Region.holds_slot_start
    {slot : Nat} : (Region.slot slot).Holds slot :=
  Region.holds_slot (show 0 < 3 by decide)

/-- A slot with a tag and its data: one word, and the other one cleared. -/
structure SlotHolds
    (memory : Memory)
    (slot : Nat)
    (dt : DataType)
    (low : Nat) : Prop where
  tag : dataType memory slot = some dt
  size : dataSize memory slot = 1
  low : memory (slot + 1) = low
  high : memory (slot + 2) = 0

theorem SlotHolds.unchanged
    {memory memory' : Memory}
    {slot low : Nat}
    {dt : DataType}
    (holds : SlotHolds memory slot dt low)
    (same : Unchanged memory memory' (Region.slot slot)) :
    SlotHolds memory' slot dt low := by
  have fields := fields_congr (same slot Region.holds_slot_start)
  constructor
  · rw [fields.1]
    exact holds.tag
  · rw [fields.2.2]
    exact holds.size
  · rw [same _ (Region.holds_slot (by decide))]
    exact holds.low
  · rw [same _ (Region.holds_slot (by decide))]
    exact holds.high

namespace FieldHierarchy

variable (hierarchy : FieldHierarchy)

/-! ## Zero values -/

/-- The element is a structure, which has a block of its own. -/
def IsStructure (res : SignatureElement) : Prop :=
  res.m_levels = 0 ∧ res.m_dt = .valueType ∧
    (hierarchy.m_target res.m_cls).semantics ≠ .Enum ∧
    (hierarchy.m_target res.m_cls).dataType = .valueType

/-- The tag of the zero value of an element that is no structure: null, or a
number of its type; enumerations and the basic value types have the type that
their definition names. -/
def zeroDataType (res : SignatureElement) : DataType :=
  if 0 < res.m_levels then .object
  else if res.m_dt = .valueType then (hierarchy.m_target res.m_cls).dataType
  else if c_Reference res.m_dt then .object
  else res.m_dt

/-- The block that an object of a class takes. -/
def objectRegion (obj : Nat) (cls : TypeIndex) : Region :=
  ⟨obj, 3 * (hierarchy.m_totalFields cls + 1)⟩

/-- The slot of a field. -/
def slotOf (obj : Nat) (field : FieldIndex) : Nat :=
  obj + 3 * hierarchy.m_offset field

/-- The descriptor of an object, whose lock is free. -/
structure InstanceHeader
    (memory : Memory)
    (obj : Nat)
    (cls : TypeIndex) : Prop where
  notNull : obj ≠ 0
  tag : dataType memory obj = some (hierarchy.m_target cls).dataType
  size : dataSize memory obj = hierarchy.m_totalFields cls + 1
  cls_ : memory (obj + 1) = cls.m_data
  lock : memory (obj + 2) = 0

/-- The slots of these fields hold the zero values of the declared types; the
regions are those of the structures, each with one owner. -/
inductive ZeroFields (memory : Memory) :
    Nat → List FieldIndex → List Region → Prop where
  | nil {obj : Nat} : ZeroFields memory obj [] []
  | plain {obj : Nat} {field : FieldIndex} {fields : List FieldIndex}
      {regions : List Region} {res : SignatureElement} :
      hierarchy.signature field = some res → ¬ hierarchy.IsStructure res →
      SlotHolds memory (hierarchy.slotOf obj field)
        (hierarchy.zeroDataType res) 0 →
      ZeroFields memory obj fields regions →
      ZeroFields memory obj (field :: fields) regions
  | struct {obj ptr : Nat} {field : FieldIndex} {fields : List FieldIndex}
      {inner regions : List Region} {res : SignatureElement} :
      hierarchy.signature field = some res → hierarchy.IsStructure res →
      hierarchy.Loaded res.m_cls →
      SlotHolds memory (hierarchy.slotOf obj field) .object ptr →
      hierarchy.InstanceHeader memory ptr res.m_cls →
      ZeroFields memory ptr (hierarchy.declaredFields res.m_cls) inner →
      ZeroFields memory obj fields regions →
      ZeroFields memory obj (field :: fields)
        (inner ++ [hierarchy.objectRegion ptr res.m_cls] ++ regions)

/-- A new object of a class, in these regions. -/
structure ZeroInstance
    (memory : Memory)
    (obj : Nat)
    (cls : TypeIndex)
    (regions : List Region) : Prop where
  header : hierarchy.InstanceHeader memory obj cls
  fields : ∃ inner, regions = inner ++ [hierarchy.objectRegion obj cls] ∧
    hierarchy.ZeroFields memory obj (hierarchy.declaredFields cls) inner

/-! ## Zero values are kept -/

section Kept

variable {hierarchy} {memory memory' : Memory} {obj : Nat} {cls : TypeIndex}
  {field : FieldIndex} {fields : List FieldIndex} {regions : List Region}

theorem InstanceHeader.unchanged
    (header : hierarchy.InstanceHeader memory obj cls)
    (same : Unchanged memory memory' (Region.slot obj)) :
    hierarchy.InstanceHeader memory' obj cls := by
  have fields := fields_congr (same obj Region.holds_slot_start)
  constructor
  · exact header.notNull
  · rw [fields.1]
    exact header.tag
  · rw [fields.2.2]
    exact header.size
  · rw [same _ (Region.holds_slot (by decide))]
    exact header.cls_
  · rw [same _ (Region.holds_slot (by decide))]
    exact header.lock

theorem m_offset_bounds
    (loaded : hierarchy.Loaded cls)
    (fits : (hierarchy.declaredFields cls).length < 0x10000)
    (declared : field ∈ hierarchy.declaredFields cls) :
    1 ≤ hierarchy.m_offset field ∧
      hierarchy.m_offset field ≤ hierarchy.m_totalFields cls :=
  (((layoutExact_iff loaded).mpr fits).covers _).mp
    (List.mem_map_of_mem declared)

/-- The slot of a field lies in its object, behind the descriptor. -/
theorem slotOf_inside
    (loaded : hierarchy.Loaded cls)
    (fits : (hierarchy.declaredFields cls).length < 0x10000)
    (declared : field ∈ hierarchy.declaredFields cls)
    {address : Nat}
    (held : (Region.slot (hierarchy.slotOf obj field)).Holds address) :
    obj + 3 ≤ address ∧ (hierarchy.objectRegion obj cls).Holds address := by
  have bounds := m_offset_bounds loaded fits declared
  simp only [Region.Holds, Region.slot, slotOf, objectRegion] at held ⊢
  omega

theorem header_inside
    {address : Nat}
    (held : (Region.slot obj).Holds address) :
    (hierarchy.objectRegion obj cls).Holds address := by
  simp only [Region.Holds, Region.slot, objectRegion] at held ⊢
  omega

variable (fits : ∀ cls, hierarchy.Loaded cls →
  (hierarchy.declaredFields cls).length < 0x10000)

include fits in
/-- Fields stay zero while their slots and their structures are left alone. -/
theorem ZeroFields.unchanged
    (zero : hierarchy.ZeroFields memory obj fields regions)
    (slots : ∀ field ∈ fields,
      Unchanged memory memory' (Region.slot (hierarchy.slotOf obj field)))
    (structures : ∀ region ∈ regions, Unchanged memory memory' region) :
    hierarchy.ZeroFields memory' obj fields regions := by
  induction zero with
  | nil => exact .nil
  | plain read plain_ holds _ inductionHypothesis =>
      rw [List.forall_mem_cons] at slots
      exact .plain read plain_ (holds.unchanged slots.1)
        (inductionHypothesis slots.2 structures)
  | @struct obj ptr field fields inner regions res read struct_ loaded holds
      header _ _ ofStructure ofRest =>
      rw [List.forall_mem_cons] at slots
      simp only [List.forall_mem_append, List.forall_mem_singleton] at structures
      have block := structures.1.2
      apply ZeroFields.struct read struct_ loaded (holds.unchanged slots.1)
      · apply header.unchanged
        intro address held
        exact block address (header_inside held)
      · apply ofStructure
        · intro field declared address held
          exact block address
            (slotOf_inside loaded (fits _ loaded) declared held).2
        · exact structures.1.1
      · exact ofRest slots.2 structures.2

end Kept

end FieldHierarchy

end TypeSystem

end NanoClr
