import NanoClr.Library.ArraySubtyping

/-!
# The type of an object and the type it is tested for

`IsInstanceOf` strips levels of arrays from both types and walks up the classes
of the object, scanning the interfaces that each of them lists.
-/

namespace NanoClr

namespace TypeSystem

/-- `TD_Semantics_Mask`. -/
inductive Semantics where
  | Class
  | ValueType
  | Interface
  | Enum
deriving DecidableEq

/-- A type definition with its references resolved. -/
structure TypeDefinition where
  dataType : Nat
  semantics : Semantics
  extends_ : Option Nat
  interfaces : List Nat

/-- The loaded types by index. No class is above itself. -/
structure TypeHierarchy where
  m_target : Nat → TypeDefinition
  depth : Nat → Nat
  depth_extends : ∀ {cls parent : Nat},
    (m_target cls).extends_ = some parent → depth parent < depth cls
  m_Array : Nat
  m_Object : Nat
  m_IList : Nat
  m_ICloneable : Nat
  m_Type : Nat
  m_Type_ne : m_Type ≠ m_Array ∧ m_Type ≠ m_Object ∧ m_Type ≠ m_IList ∧
    m_Type ≠ m_ICloneable

/-- The class that handles a type, and its reflection: the levels of an array
and the type below them. -/
structure TypeDescriptor where
  m_handlerCls : Nat
  m_levels : Nat
  m_type : Nat

namespace TypeDescriptor

/-- `InitializeFromType`: the descriptor of a type that is no array. -/
def InitializeFromType (cls : Nat) : TypeDescriptor where
  m_handlerCls := cls
  m_levels := 0
  m_type := cls

/-- `GetElementType`: the descriptor with one level less. -/
def GetElementType (desc : TypeDescriptor) : TypeDescriptor :=
  match desc.m_levels with
  | 0 => desc
  | 1 => InitializeFromType desc.m_type
  | levels + 2 => { desc with m_levels := levels + 1 }

theorem m_levels_getElementType (desc : TypeDescriptor) :
    desc.GetElementType.m_levels = desc.m_levels - 1 := by
  unfold GetElementType
  split
  case h_1 flat =>
    rw [flat]
  case h_2 one =>
    rw [one]
    rfl
  case h_3 levels several =>
    rw [several]
    rfl

/-- The loop over the levels of both types, and `fArray`. -/
def stripLevels
    (desc descTarget : TypeDescriptor)
    (fArray : Bool) : TypeDescriptor × TypeDescriptor × Bool :=
  if 0 < desc.m_levels ∧ 0 < descTarget.m_levels then
    stripLevels desc.GetElementType descTarget.GetElementType true
  else
    (desc, descTarget, fArray)
termination_by desc.m_levels
decreasing_by
  rw [m_levels_getElementType]
  omega

end TypeDescriptor

/-- An object as its descriptor sees it: an instance of a class, an array, or
the object that reflects a type. -/
inductive ManagedObject where
  | instance_ (cls : Nat)
  | array (element : ArrayType Nat)
  | typeObject (reflected : ArrayType Nat)

namespace TypeHierarchy

open TypeDescriptor

variable (hierarchy : TypeHierarchy)

/-- The kind of a type. -/
def semantics (cls : Nat) : Semantics := (hierarchy.m_target cls).semantics

/-- `ConvertToArray`. -/
def ConvertToArray (desc : TypeDescriptor) : TypeDescriptor :=
  { desc with m_handlerCls := hierarchy.m_Array }

/-- `InitializeFromTypeSpec`: a type and the levels of its array. -/
def InitializeFromTypeSpec (type : ArrayType Nat) : TypeDescriptor :=
  if type.levels = 0 then
    InitializeFromType type.cls
  else
    hierarchy.ConvertToArray
      { InitializeFromType type.cls with m_levels := type.levels }

/-- `InitializeFromObject`; an array and a type object hold a reflection. -/
def InitializeFromObject : ManagedObject → TypeDescriptor
  | .instance_ cls => InitializeFromType cls
  | .array element =>
      hierarchy.ConvertToArray
        { InitializeFromType element.cls with m_levels := element.levels + 1 }
  | .typeObject reflected =>
      { InitializeFromType hierarchy.m_Type with
        m_levels := reflected.levels
        m_type := reflected.cls }

/-- The walk from a class up. -/
def scan (instTarget inst : Nat) : Bool :=
  if inst = instTarget then
    true
  else if hierarchy.semantics instTarget = .Interface ∧
      instTarget ∈ (hierarchy.m_target inst).interfaces then
    true
  else
    match _h : (hierarchy.m_target inst).extends_ with
    | some parent => scan instTarget parent
    | none => false
termination_by hierarchy.depth inst
decreasing_by
  exact hierarchy.depth_extends _h

/-- `IsInstanceOf` on descriptors: the levels that both have are stripped, and
the rest is compared. -/
def IsInstanceOf (desc descTarget : TypeDescriptor) : Bool :=
  let (desc, descTarget, fArray) := stripLevels desc descTarget false
  let inst := desc.m_handlerCls
  let instTarget := descTarget.m_handlerCls
  if desc.m_levels < descTarget.m_levels then
    false
  else if descTarget.m_levels < desc.m_levels ∧ descTarget.m_levels = 0 ∧
      (inst = hierarchy.m_Array ∨ inst = hierarchy.m_Object ∨
        inst = hierarchy.m_IList ∨ inst = hierarchy.m_ICloneable) then
    true
  else if descTarget.m_levels < desc.m_levels ∧
      (hierarchy.m_target inst).dataType ≠
        (hierarchy.m_target instTarget).dataType then
    false
  else if fArray = true ∧
      hierarchy.semantics inst ≠ hierarchy.semantics instTarget then
    false
  else
    hierarchy.scan instTarget inst

end TypeHierarchy

/-! ## Levels -/

namespace TypeDescriptor

variable {desc descTarget : TypeDescriptor} {fArray : Bool}

theorem getElementType_last (one : desc.m_levels = 1) :
    desc.GetElementType = InitializeFromType desc.m_type := by
  unfold GetElementType
  rw [one]

theorem getElementType_inner {levels : Nat} (several : desc.m_levels = levels + 2) :
    desc.GetElementType = { desc with m_levels := levels + 1 } := by
  unfold GetElementType
  rw [several]

theorem stripLevels_step
    (left : 0 < desc.m_levels)
    (right : 0 < descTarget.m_levels) :
    stripLevels desc descTarget fArray =
      stripLevels desc.GetElementType descTarget.GetElementType true := by
  rw [stripLevels, if_pos ⟨left, right⟩]

theorem stripLevels_done (flat : desc.m_levels = 0 ∨ descTarget.m_levels = 0) :
    stripLevels desc descTarget fArray = (desc, descTarget, fArray) := by
  rw [stripLevels, if_neg (by omega)]

/-- Types of the same depth are stripped to the types below all levels. -/
theorem stripLevels_same
    {levels : Nat}
    (left : desc.m_levels = levels + 1)
    (right : descTarget.m_levels = levels + 1) :
    stripLevels desc descTarget fArray =
      (InitializeFromType desc.m_type, InitializeFromType descTarget.m_type,
        true) := by
  induction levels generalizing desc descTarget fArray with
  | zero =>
      rw [stripLevels_step (by omega) (by omega), getElementType_last left,
        getElementType_last right, stripLevels_done (Or.inl rfl)]
  | succ levels inductionHypothesis =>
      rw [stripLevels_step (by omega) (by omega), getElementType_inner left,
        getElementType_inner right, inductionHypothesis rfl rfl]

/-- Some levels of a deeper type remain. -/
theorem stripLevels_deeper
    {levels more : Nat}
    (left : desc.m_levels = levels + 1 + (more + 1))
    (right : descTarget.m_levels = levels + 1) :
    stripLevels desc descTarget fArray =
      ({ desc with m_levels := more + 1 },
        InitializeFromType descTarget.m_type, true) := by
  induction levels generalizing desc descTarget fArray with
  | zero =>
      have inner : desc.m_levels = more + 2 := by omega
      rw [stripLevels_step (by omega) (by omega), getElementType_last right,
        getElementType_inner inner, stripLevels_done (Or.inr rfl)]
  | succ levels inductionHypothesis =>
      have deeper : desc.m_levels = (levels + 1 + more) + 2 := by omega
      rw [stripLevels_step (by omega) (by omega), getElementType_inner right,
        getElementType_inner deeper,
        inductionHypothesis (Nat.add_assoc _ _ _) rfl]

/-- A deeper target stays deeper. -/
theorem stripLevels_shallower (less : desc.m_levels < descTarget.m_levels) :
    (stripLevels desc descTarget fArray).1.m_levels <
      (stripLevels desc descTarget fArray).2.1.m_levels := by
  generalize deep : desc.m_levels = levels at less
  induction levels generalizing desc descTarget fArray with
  | zero =>
      rw [stripLevels_done (Or.inl deep)]
      dsimp only
      omega
  | succ levels inductionHypothesis =>
      rw [stripLevels_step (by omega) (by omega)]
      apply inductionHypothesis
      · rw [m_levels_getElementType]
        omega
      · rw [m_levels_getElementType]
        omega

end TypeDescriptor

end TypeSystem

end NanoClr
