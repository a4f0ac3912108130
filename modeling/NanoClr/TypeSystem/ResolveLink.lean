import Mathlib.Data.List.Perm.Subperm
import Mathlib.Data.List.Range
import NanoClr.Heap.HeapBlock
import NanoClr.TypeSystem.IsInstanceOf

/-!
# The layout of fields

`Resolve_Link` numbers the static fields of an assembly, and gives each
instance field its offset in an object, behind the fields that the class
inherits.  Offsets and numbers of fields are 16-bit.
-/

namespace NanoClr

namespace TypeSystem

/-! ## The records -/

/-- A type definition of an assembly. -/
structure TypeIndex where
  assembly : Nat
  type : Nat
deriving DecidableEq

namespace TypeIndex

/-- `m_data`. -/
def m_data (cls : TypeIndex) : Nat := cls.assembly * 0x10000 + cls.type

end TypeIndex

/-- A field definition of an assembly. -/
structure FieldIndex where
  assembly : Nat
  field : Nat
deriving DecidableEq

/-- The types that `c_CLR_RT_DataTypeLookup` flags as references. -/
def c_Reference : DataType → Bool
  | .void | .boolean | .i1 | .u1 | .char | .i2 | .u2 | .i4 | .u4 | .r4
  | .i8 | .u8 | .r8 | .dateTime | .timeSpan
  | .freeBlock | .cachedBlock | .reflection | .arrayByRef
  | .memoryStreamHead | .memoryStreamData
  | .serializerHead | .serializerDuplicate | .serializerState => false
  | _ => true

/-- The results of creating an object. -/
inductive HRESULT where
  | S_OK
  | CLR_E_WRONG_TYPE
  | CLR_E_OUT_OF_MEMORY
  | CLR_E_FAIL
deriving DecidableEq

/-- The element of a signature. -/
structure SignatureElement where
  m_dt : DataType
  m_levels : Nat
  m_cls : TypeIndex

/-- `CLR_RECORD_TYPEDEF`, with the base class resolved. -/
structure TypeRecord where
  dataType : DataType
  semantics : Semantics
  hasFinalizer : Bool
  extends_ : Option TypeIndex
  methods_First : Nat
  vMethods_Num : UInt8
  iMethods_Num : UInt8
  sMethods_Num : UInt8
  sFields_First : Nat
  iFields_First : Nat
  sFields_Num : UInt8
  iFields_Num : UInt8

/-- What is linked for the types, the fields and the methods of an
assembly. -/
structure CrossReferences where
  m_offset : Nat → Nat
  m_totalFields : Nat → Nat
  hasFinalizer : Nat → Bool
  m_owner : Nat → Nat

/-- The loaded assemblies, resolved and not yet linked.  No class is above
itself, and the types of an assembly have their own records of fields.  A field
whose type is a value type and no enumeration holds a basic type or a structure
that is nested less deeply. -/
structure FieldHierarchy where
  typeCount : Nat → Nat
  m_target : TypeIndex → TypeRecord
  /-- What `Advance` reads from the signature of a field. -/
  signature : FieldIndex → Option SignatureElement
  unlinked : Nat → CrossReferences
  m_Array : TypeIndex
  depth : TypeIndex → Nat
  depth_extends : ∀ {cls parent : TypeIndex},
    (m_target cls).extends_ = some parent → depth parent < depth cls
  extends_loaded : ∀ {cls parent : TypeIndex},
    (m_target cls).extends_ = some parent →
      parent.type < typeCount parent.assembly
  fields_apart : ∀ {assembly type other index place : Nat},
    type < typeCount assembly → other < typeCount assembly →
      index < (m_target ⟨assembly, type⟩).iFields_Num.toNat →
        (place < (m_target ⟨assembly, other⟩).iFields_Num.toNat →
          (m_target ⟨assembly, type⟩).iFields_First + index =
            (m_target ⟨assembly, other⟩).iFields_First + place →
              type = other) ∧
        (place < (m_target ⟨assembly, other⟩).sFields_Num.toNat →
          (m_target ⟨assembly, type⟩).iFields_First + index ≠
            (m_target ⟨assembly, other⟩).sFields_First + place)
  nesting : TypeIndex → Nat
  nesting_extends : ∀ {cls parent : TypeIndex},
    (m_target cls).extends_ = some parent → nesting parent ≤ nesting cls
  nesting_field : ∀ {cls : TypeIndex} {index : Nat} {res : SignatureElement},
    index < (m_target cls).iFields_Num.toNat →
      signature ⟨cls.assembly, (m_target cls).iFields_First + index⟩ =
          some res →
        res.m_dt = .valueType → res.m_levels = 0 →
          (m_target res.m_cls).semantics ≠ .Enum →
            res.m_cls.type < typeCount res.m_cls.assembly ∧
              nesting res.m_cls < nesting cls ∧
              (c_Reference (m_target res.m_cls).dataType = true →
                (m_target res.m_cls).dataType = .valueType)

namespace FieldHierarchy

variable (hierarchy : FieldHierarchy)

/-! ## `Resolve_Link` -/

/-- The slots in front of the fields of an object. -/
def HB_Object_Fields_Offset : Nat := 1

/-- Consecutive fields get consecutive offsets. -/
def linkFields (m_offset : Nat → Nat) (fd : Nat) (i : Int) : Nat → Nat → Nat
  | 0 => m_offset
  | num + 1 =>
      linkFields (Function.update m_offset fd (i % 0x10000).toNat)
        (fd + 1) (i + 1) num

/-- The methods of a type get the type as their owner. -/
def linkMethods (m_owner : Nat → Nat) (idxType md : Nat) : Nat → Nat → Nat
  | 0 => m_owner
  | num + 1 =>
      linkMethods (Function.update m_owner md (idxType % 0x10000)) idxType
        (md + 1) num

/-- The loop over a class and the classes above it: the number of fields, and
whether one of the classes has a finalizer. -/
def addFields (inst : TypeIndex) (tot : Nat) (flag : Bool) : Nat × Bool :=
  let flag := flag || (hierarchy.m_target inst).hasFinalizer
  let tot := (tot + (hierarchy.m_target inst).iFields_Num.toNat) % 0x10000
  match _h : (hierarchy.m_target inst).extends_ with
  | some parent => addFields parent tot flag
  | none => (tot, flag)
termination_by hierarchy.depth inst
decreasing_by
  exact hierarchy.depth_extends _h

/-- One round of the loop over the types; the second component is
`iStaticFields`. -/
def linkType
    (assembly : Nat)
    (state : CrossReferences × Int)
    (idxType : Nat) : CrossReferences × Int :=
  let (cross, iStaticFields) := state
  let src := hierarchy.m_target ⟨assembly, idxType⟩
  let m_offset := linkFields cross.m_offset src.sFields_First iStaticFields
    src.sFields_Num.toNat
  let (tot, flag) :=
    hierarchy.addFields ⟨assembly, idxType⟩ 0 (cross.hasFinalizer idxType)
  let num := src.iFields_Num.toNat
  let i : Int := (tot : Int) - num + HB_Object_Fields_Offset
  let methods := src.vMethods_Num.toNat + src.iMethods_Num.toNat +
    src.sMethods_Num.toNat
  ({ m_offset := linkFields m_offset src.iFields_First i num
     m_totalFields := Function.update cross.m_totalFields idxType tot
     hasFinalizer := Function.update cross.hasFinalizer idxType flag
     m_owner := linkMethods cross.m_owner idxType src.methods_First methods },
    iStaticFields + src.sFields_Num.toNat)

/-- The loop over so many types. -/
def linkTypes (assembly count : Nat) : CrossReferences × Int :=
  (List.range count).foldl (hierarchy.linkType assembly)
    (hierarchy.unlinked assembly, 0)

/-- `Resolve_Link` of an assembly: the numbers of its fields, and its
finalizers. -/
def Resolve_Link (assembly : Nat) : CrossReferences :=
  (hierarchy.linkTypes assembly (hierarchy.typeCount assembly)).1

/-- `CrossReference()` of a type. -/
def m_totalFields (inst : TypeIndex) : Nat :=
  (hierarchy.Resolve_Link inst.assembly).m_totalFields inst.type

/-- The type has a finalizer, or a base of it has. -/
def HasFinalizer (inst : TypeIndex) : Bool :=
  (hierarchy.Resolve_Link inst.assembly).hasFinalizer inst.type

/-- `CrossReference()` of a field. -/
def m_offset (field : FieldIndex) : Nat :=
  (hierarchy.Resolve_Link field.assembly).m_offset field.field

/-! ## The fields of a class -/

/-- The type belongs to a loaded assembly. -/
def Loaded (cls : TypeIndex) : Prop :=
  cls.type < hierarchy.typeCount cls.assembly

/-- The instance field of a class with a number. -/
def ownField (cls : TypeIndex) (index : Nat) : FieldIndex :=
  ⟨cls.assembly, (hierarchy.m_target cls).iFields_First + index⟩

/-- The first instance fields of a class. -/
def ownFields (cls : TypeIndex) (count : Nat) : List FieldIndex :=
  (List.range count).map (hierarchy.ownField cls)

/-- The instance fields of a class and of all its bases. -/
def declaredFields (cls : TypeIndex) : List FieldIndex :=
  (match _h : (hierarchy.m_target cls).extends_ with
    | some parent => declaredFields parent
    | none => []) ++
    hierarchy.ownFields cls (hierarchy.m_target cls).iFields_Num.toNat
termination_by hierarchy.depth cls
decreasing_by
  exact hierarchy.depth_extends _h

/-- The instance fields that a class inherits. -/
def inheritedFields (cls : TypeIndex) : List FieldIndex :=
  match (hierarchy.m_target cls).extends_ with
  | some parent => hierarchy.declaredFields parent
  | none => []

/-- The offsets of the fields of a class are pairwise distinct and are the
numbers from 1 to `m_totalFields`. -/
structure LayoutExact (cls : TypeIndex) : Prop where
  distinct :
    ((hierarchy.declaredFields cls).map hierarchy.m_offset).Nodup
  covers : ∀ offset,
    offset ∈ (hierarchy.declaredFields cls).map hierarchy.m_offset ↔
      1 ≤ offset ∧ offset ≤ hierarchy.m_totalFields cls

/-! ## Linking one type -/

section Linking

variable {m_offset : Nat → Nat} {fd num index place : Nat} {i : Int}

theorem linkFields_outside
    (outside : ∀ index < num, place ≠ fd + index) :
    linkFields m_offset fd i num place = m_offset place := by
  induction num generalizing m_offset fd i with
  | zero => rfl
  | succ num inductionHypothesis =>
      rw [linkFields, inductionHypothesis]
      · exact Function.update_of_ne (outside 0 (Nat.succ_pos num)) _ _
      · intro index inside
        have next := outside (index + 1) (by omega)
        omega

theorem linkFields_inside (inside : index < num) :
    linkFields m_offset fd i num (fd + index) =
      ((i + index) % 0x10000).toNat := by
  induction num generalizing m_offset fd i index with
  | zero => omega
  | succ num inductionHypothesis =>
      rw [linkFields]
      cases index with
      | zero =>
          rw [linkFields_outside]
          · simp
          · intro index _
            omega
      | succ index =>
          rw [show fd + (index + 1) = fd + 1 + index by omega,
            inductionHypothesis (by omega)]
          push_cast
          rw [show i + 1 + (index : Int) = i + (index + 1) by omega]

end Linking

section Hierarchy

variable {hierarchy : FieldHierarchy} {cls : TypeIndex}

theorem declaredFields_eq :
    hierarchy.declaredFields cls =
      hierarchy.inheritedFields cls ++
        hierarchy.ownFields cls
          (hierarchy.m_target cls).iFields_Num.toNat := by
  rw [declaredFields, inheritedFields]
  split
  case h_1 parent above =>
    rw [above]
  case h_2 top =>
    rw [top]

@[simp] theorem length_ownFields (count : Nat) :
    (hierarchy.ownFields cls count).length = count := by
  rw [ownFields, List.length_map, List.length_range]

theorem length_declaredFields :
    (hierarchy.declaredFields cls).length =
      (hierarchy.inheritedFields cls).length +
        (hierarchy.m_target cls).iFields_Num.toNat := by
  rw [declaredFields_eq, List.length_append, length_ownFields]

theorem ownFields_succ (count : Nat) :
    hierarchy.ownFields cls (count + 1) =
      hierarchy.ownFields cls count ++ [hierarchy.ownField cls count] := by
  rw [ownFields, List.range_succ, List.map_append]
  rfl

theorem inheritedFields_some
    {parent : TypeIndex}
    (above : (hierarchy.m_target cls).extends_ = some parent) :
    hierarchy.inheritedFields cls = hierarchy.declaredFields parent := by
  rw [inheritedFields, above]

theorem inheritedFields_none
    (top : (hierarchy.m_target cls).extends_ = none) :
    hierarchy.inheritedFields cls = [] := by
  rw [inheritedFields, top]

/-- The number of fields is counted modulo 16 bits. -/
theorem addFields_eq (inst : TypeIndex) (tot : Nat) (flag : Bool) :
    (hierarchy.addFields inst tot flag).1 =
      (tot + (hierarchy.declaredFields inst).length) % 0x10000 := by
  induction inst, tot, flag using addFields.induct hierarchy with
  | case1 inst counted flag _ tot parent above inductionHypothesis =>
      rw [addFields, length_declaredFields, inheritedFields_some above]
      split
      case h_1 parent' above' =>
        rw [above] at above'
        cases above'
        rw [inductionHypothesis]
        omega
      case h_2 top =>
        rw [above] at top
        cases top
  | case2 inst counted flag top =>
      rw [addFields, length_declaredFields, inheritedFields_none top]
      split
      case h_1 parent above =>
        rw [above] at top
        cases top
      case h_2 =>
        rw [List.length_nil]
        omega

variable (hierarchy) in
/-- The number that the link writes for a type. -/
def linkedTotal (cls : TypeIndex) : Nat :=
  (hierarchy.declaredFields cls).length % 0x10000

variable (hierarchy) in
/-- The offset that the link writes for a field. -/
def linkedOffset (cls : TypeIndex) (index : Nat) : Nat :=
  (((hierarchy.linkedTotal cls : Int) -
      (hierarchy.m_target cls).iFields_Num.toNat + 1 + index) %
    0x10000).toNat

variable {assembly type idxType index : Nat}
  {state : CrossReferences × Int}

theorem linkType_total :
    (hierarchy.linkType assembly state idxType).1.m_totalFields =
      Function.update state.1.m_totalFields idxType
        (hierarchy.linkedTotal ⟨assembly, idxType⟩) := by
  have counted := hierarchy.addFields_eq ⟨assembly, idxType⟩ 0
    (state.1.hasFinalizer idxType)
  rw [Nat.zero_add] at counted
  rw [linkedTotal, ← counted]
  rfl

theorem linkType_offset :
    (hierarchy.linkType assembly state idxType).1.m_offset =
      linkFields
        (linkFields state.1.m_offset
          (hierarchy.m_target ⟨assembly, idxType⟩).sFields_First state.2
          (hierarchy.m_target ⟨assembly, idxType⟩).sFields_Num.toNat)
        (hierarchy.m_target ⟨assembly, idxType⟩).iFields_First
        ((hierarchy.linkedTotal ⟨assembly, idxType⟩ : Int) -
          (hierarchy.m_target ⟨assembly, idxType⟩).iFields_Num.toNat + 1)
        (hierarchy.m_target ⟨assembly, idxType⟩).iFields_Num.toNat := by
  have counted := hierarchy.addFields_eq ⟨assembly, idxType⟩ 0
    (state.1.hasFinalizer idxType)
  rw [Nat.zero_add] at counted
  rw [linkedTotal, ← counted]
  rfl

theorem linkType_ownOffset
    (inside :
      index < (hierarchy.m_target ⟨assembly, type⟩).iFields_Num.toNat) :
    (hierarchy.linkType assembly state type).1.m_offset
        (hierarchy.ownField ⟨assembly, type⟩ index).field =
      hierarchy.linkedOffset ⟨assembly, type⟩ index := by
  rw [linkType_offset]
  exact linkFields_inside inside

theorem linkType_otherOffset
    (loaded : type < hierarchy.typeCount assembly)
    (other : idxType < hierarchy.typeCount assembly)
    (different : type ≠ idxType)
    (inside :
      index < (hierarchy.m_target ⟨assembly, type⟩).iFields_Num.toNat) :
    (hierarchy.linkType assembly state idxType).1.m_offset
        (hierarchy.ownField ⟨assembly, type⟩ index).field =
      state.1.m_offset (hierarchy.ownField ⟨assembly, type⟩ index).field := by
  rw [linkType_offset, linkFields_outside, linkFields_outside]
  · intro place inOther
    exact (hierarchy.fields_apart loaded other inside).2 inOther
  · intro place inOther same
    exact different
      ((hierarchy.fields_apart loaded other inside).1 inOther same)

/-! ## Linking an assembly -/

theorem linkTypes_succ (count : Nat) :
    hierarchy.linkTypes assembly (count + 1) =
      hierarchy.linkType assembly (hierarchy.linkTypes assembly count)
        count := by
  rw [linkTypes, List.range_succ, List.foldl_append]
  rfl

/-- The types that have been linked keep their numbers and offsets. -/
theorem linkTypes_linked
    {count : Nat}
    (loaded : count ≤ hierarchy.typeCount assembly)
    (linked : type < count) :
    (hierarchy.linkTypes assembly count).1.m_totalFields type =
        hierarchy.linkedTotal ⟨assembly, type⟩ ∧
      ∀ index < (hierarchy.m_target ⟨assembly, type⟩).iFields_Num.toNat,
        (hierarchy.linkTypes assembly count).1.m_offset
            (hierarchy.ownField ⟨assembly, type⟩ index).field =
          hierarchy.linkedOffset ⟨assembly, type⟩ index := by
  induction count with
  | zero => omega
  | succ count inductionHypothesis =>
      rw [linkTypes_succ, linkType_total]
      by_cases last : type = count
      · subst last
        constructor
        · exact Function.update_self _ _ _
        · intro index inside
          exact linkType_ownOffset inside
      · have before := inductionHypothesis (by omega) (by omega)
        constructor
        · rw [Function.update_of_ne last]
          exact before.1
        · intro index inside
          rw [linkType_otherOffset (by omega) (by omega) last inside]
          exact before.2 index inside

theorem m_totalFields_eq (loaded : hierarchy.Loaded cls) :
    hierarchy.m_totalFields cls =
      (hierarchy.declaredFields cls).length % 0x10000 :=
  (linkTypes_linked (Nat.le_refl _) loaded).1

theorem m_offset_ownField
    (loaded : hierarchy.Loaded cls)
    (inside : index < (hierarchy.m_target cls).iFields_Num.toNat) :
    hierarchy.m_offset (hierarchy.ownField cls index) =
      hierarchy.linkedOffset cls index :=
  (linkTypes_linked (Nat.le_refl _) loaded).2 index inside

/-! ## The layout -/

/-- Offsets that fit are counted on from those of the base class. -/
theorem m_offset_eq
    (loaded : hierarchy.Loaded cls)
    (fits : (hierarchy.declaredFields cls).length < 0x10000)
    (inside : index < (hierarchy.m_target cls).iFields_Num.toNat) :
    hierarchy.m_offset (hierarchy.ownField cls index) =
      (hierarchy.inheritedFields cls).length + 1 + index := by
  rw [m_offset_ownField loaded inside, linkedOffset, linkedTotal,
    Nat.mod_eq_of_lt fits]
  rw [length_declaredFields] at fits ⊢
  omega

theorem map_offset_ownFields
    (loaded : hierarchy.Loaded cls)
    (fits : (hierarchy.declaredFields cls).length < 0x10000)
    {count : Nat}
    (own : count ≤ (hierarchy.m_target cls).iFields_Num.toNat) :
    (hierarchy.ownFields cls count).map hierarchy.m_offset =
      List.range' ((hierarchy.inheritedFields cls).length + 1) count := by
  induction count with
  | zero => rfl
  | succ count inductionHypothesis =>
      rw [ownFields_succ, List.map_append, inductionHypothesis (by omega),
        List.map_singleton, m_offset_eq loaded fits (by omega),
        List.range'_concat, Nat.one_mul]

/-- In the order of declaration, from the base class on, the offsets count
from 1. -/
theorem map_offset_declaredFields
    (loaded : hierarchy.Loaded cls)
    (fits : (hierarchy.declaredFields cls).length < 0x10000) :
    (hierarchy.declaredFields cls).map hierarchy.m_offset =
      List.range' 1 (hierarchy.declaredFields cls).length := by
  induction cls using declaredFields.induct hierarchy with
  | case1 cls inductionHypothesis =>
      have own := map_offset_ownFields loaded fits (Nat.le_refl _)
      have inherited :
          (hierarchy.inheritedFields cls).map hierarchy.m_offset =
            List.range' 1 (hierarchy.inheritedFields cls).length := by
        rw [length_declaredFields] at fits
        rw [inheritedFields] at fits ⊢
        split
        case h_1 parent above =>
          rw [above] at fits
          exact inductionHypothesis parent above
            (hierarchy.extends_loaded above) (by simp only at fits; omega)
        case h_2 => rfl
      rw [length_declaredFields, ← List.range'_append_1, ← inherited,
        Nat.add_comm 1, ← own, declaredFields_eq, List.map_append]

/-- The layout is exact for the classes whose fields can be counted with 16
bits. -/
theorem layoutExact_iff (loaded : hierarchy.Loaded cls) :
    hierarchy.LayoutExact cls ↔
      (hierarchy.declaredFields cls).length < 0x10000 := by
  constructor
  · intro exact_
    have inside :
        (hierarchy.declaredFields cls).map hierarchy.m_offset ⊆
          List.range' 1 (hierarchy.m_totalFields cls) := by
      intro offset member
      have bounds := (exact_.covers offset).mp member
      rw [List.mem_range'_1]
      omega
    have count := (List.subperm_of_subset exact_.distinct inside).length_le
    rw [List.length_map, List.length_range', m_totalFields_eq loaded] at count
    omega
  · intro fits
    have offsets := map_offset_declaredFields loaded fits
    constructor
    · rw [offsets]
      exact List.nodup_range'
    · intro offset
      rw [offsets, List.mem_range'_1, m_totalFields_eq loaded,
        Nat.mod_eq_of_lt fits]
      omega

end Hierarchy

end FieldHierarchy

end TypeSystem

end NanoClr
