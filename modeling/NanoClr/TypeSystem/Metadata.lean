import Mathlib.Algebra.Ring.Int.Defs
import Mathlib.Algebra.Ring.Nat
import Mathlib.Tactic.Common

/-!
# Metadata

The records of the loaded assemblies as far as the search for a virtual method
reads them, and the matching of method signatures.  A function that reads
outside the metadata, or that does not return, has no result.
-/

namespace NanoClr

namespace TypeSystem

/-! ## Records and indices -/

/-- A C string without its terminator. -/
abbrev Text := List UInt8

/-- `CLR_EmptyIndex`. -/
def CLR_EmptyIndex : Nat := 0xFFFF

/-- The bits for the kind of a type. -/
def TD_Semantics_Mask : UInt16 := 0x0030

/-- The kind of interfaces. -/
def TD_Semantics_Interface : UInt16 := 0x0020

/-- The record of a type, as far as it is read here. -/
structure CLR_RECORD_TYPEDEF where
  name : Nat
  nameSpace : Nat
  extends_ : UInt16
  enclosingType : Nat
  methods_First : Nat
  vMethods_Num : Nat
  iMethods_Num : Nat
  flags : UInt16

/-- The flag of a method without a body. -/
def MD_Abstract : UInt32 := 0x00000200

/-- The record of a method, as far as it is read here. -/
structure CLR_RECORD_METHODDEF where
  name : Nat
  flags : UInt32
  numArgs : UInt8
  sig : Nat

/-- A type by the number of its assembly and its place there. -/
structure CLR_RT_TypeDef_Index where
  m_data : UInt32
deriving DecidableEq, Inhabited

/-- A method by the number of its assembly and its place there. -/
structure CLR_RT_MethodDef_Index where
  m_data : UInt32
deriving DecidableEq, Inhabited

/-- The half of an index that numbers the assembly. -/
def highHalf (data : UInt32) : Nat :=
  (data >>> 16).toNat

/-- The half of an index that numbers the record. -/
def lowHalf (data : UInt32) : Nat :=
  (data &&& 0xFFFF).toNat

/-- `Set` of an index. -/
def setIndex (idxAssm idxRecord : UInt32) : UInt32 :=
  idxAssm <<< 16 ||| idxRecord

theorem highHalf_eq (data : UInt32) : highHalf data = data.toNat / 2 ^ 16 := by
  rw [highHalf, UInt32.toNat_shiftRight]
  exact Nat.shiftRight_eq_div_pow _ _

theorem lowHalf_eq (data : UInt32) : lowHalf data = data.toNat % 2 ^ 16 := by
  rw [lowHalf, UInt32.toNat_and]
  exact Nat.and_two_pow_sub_one_eq_mod data.toNat 16

theorem toNat_setIndex
    {idxAssm idxRecord : UInt32}
    (assemblyFits : idxAssm.toNat < 2 ^ 16)
    (recordFits : idxRecord.toNat < 2 ^ 16) :
    (setIndex idxAssm idxRecord).toNat =
      idxAssm.toNat * 2 ^ 16 + idxRecord.toNat := by
  have shifted : (idxAssm <<< 16).toNat = idxAssm.toNat <<< 16 := by
    rw [UInt32.toNat_shiftLeft, Nat.mod_eq_of_lt]
    · rfl
    · rw [Nat.shiftLeft_eq]
      show idxAssm.toNat * 2 ^ 16 < 2 ^ 32
      omega
  rw [setIndex, UInt32.toNat_or, shifted,
    ← Nat.shiftLeft_add_eq_or_of_lt recordFits, Nat.shiftLeft_eq]

/-- `Assembly` of a type. -/
def CLR_RT_TypeDef_Index.Assembly (index : CLR_RT_TypeDef_Index) : Nat :=
  highHalf index.m_data

/-- `Type`: its place in the assembly. -/
def CLR_RT_TypeDef_Index.Type (index : CLR_RT_TypeDef_Index) : Nat :=
  lowHalf index.m_data

/-- `Assembly` of a method. -/
def CLR_RT_MethodDef_Index.Assembly (index : CLR_RT_MethodDef_Index) : Nat :=
  highHalf index.m_data

/-- `Method`: its place in the assembly. -/
def CLR_RT_MethodDef_Index.Method (index : CLR_RT_MethodDef_Index) : Nat :=
  lowHalf index.m_data

/-- An assembly: its tables, the cross references that were resolved for it,
and the strings behind its string indices. -/
structure CLR_RT_Assembly where
  m_idx : UInt32
  typeDefs : List CLR_RECORD_TYPEDEF
  methodDefs : List CLR_RECORD_METHODDEF
  typeSpecs : List Nat
  signatures : List UInt8
  m_pCrossReference_TypeRef : List CLR_RT_TypeDef_Index
  m_pCrossReference_MethodDef : List UInt16
  getString : Nat → Option Text

/-- The well known types that element types stand for. -/
structure CLR_RT_WellKnownTypes where
  m_Void : CLR_RT_TypeDef_Index
  m_Boolean : CLR_RT_TypeDef_Index
  m_Int8 : CLR_RT_TypeDef_Index
  m_UInt8 : CLR_RT_TypeDef_Index
  m_Char : CLR_RT_TypeDef_Index
  m_Int16 : CLR_RT_TypeDef_Index
  m_UInt16 : CLR_RT_TypeDef_Index
  m_Int32 : CLR_RT_TypeDef_Index
  m_UInt32 : CLR_RT_TypeDef_Index
  m_Single : CLR_RT_TypeDef_Index
  m_Int64 : CLR_RT_TypeDef_Index
  m_UInt64 : CLR_RT_TypeDef_Index
  m_Double : CLR_RT_TypeDef_Index
  m_DateTime : CLR_RT_TypeDef_Index
  m_TimeSpan : CLR_RT_TypeDef_Index
  m_String : CLR_RT_TypeDef_Index
  m_Object : CLR_RT_TypeDef_Index
deriving Inhabited

/-- The type system: the slots of the loaded assemblies and the well known
types. -/
structure CLR_RT_TypeSystem where
  m_assemblies : List (Option CLR_RT_Assembly)
  g_CLR_RT_WellKnownTypes : CLR_RT_WellKnownTypes

/-- The assembly of an index; indices count from one. -/
def CLR_RT_TypeSystem.assembly (typeSystem : CLR_RT_TypeSystem) :
    Nat → Option CLR_RT_Assembly
  | 0 => none
  | slot + 1 => typeSystem.m_assemblies[slot]?.join

/-- The number of type definitions of all assemblies. -/
def CLR_RT_TypeSystem.typeCount (typeSystem : CLR_RT_TypeSystem) : Nat :=
  (typeSystem.m_assemblies.map fun slot =>
    (slot.map fun assembly => assembly.typeDefs.length).getD 0).sum

/-! ## Instances -/

/-- A type with its assembly and its record. -/
structure CLR_RT_TypeDef_Instance where
  index : CLR_RT_TypeDef_Index
  m_assm : CLR_RT_Assembly
  m_target : CLR_RECORD_TYPEDEF

/-- A method with its assembly and its record. -/
structure CLR_RT_MethodDef_Instance where
  index : CLR_RT_MethodDef_Index
  m_assm : CLR_RT_Assembly
  m_target : CLR_RECORD_METHODDEF

section Instances

variable (typeSystem : CLR_RT_TypeSystem)

/-- `InitializeFromIndex` of a type; no instance where the index is not
valid. -/
def CLR_RT_TypeDef_Instance.initializeFromIndex
    (index : CLR_RT_TypeDef_Index) :
    Option (Option CLR_RT_TypeDef_Instance) :=
  if index.m_data = 0 then
    some none
  else do
    let m_assm ← typeSystem.assembly index.Assembly
    let m_target ← m_assm.typeDefs[index.Type]?
    some (some { index, m_assm, m_target })

/-- `InitializeFromIndex` of a method. -/
def CLR_RT_MethodDef_Instance.initializeFromIndex
    (index : CLR_RT_MethodDef_Index) :
    Option (Option CLR_RT_MethodDef_Instance) :=
  if index.m_data = 0 then
    some none
  else do
    let m_assm ← typeSystem.assembly index.Assembly
    let m_target ← m_assm.methodDefs[index.Method]?
    some (some { index, m_assm, m_target })

/-- `GetOwner` of the cross reference of a method. -/
def CLR_RT_Assembly.owner (assembly : CLR_RT_Assembly) (method : Nat) :
    Option UInt16 :=
  assembly.m_pCrossReference_MethodDef[method]?

/-- `InitializeFromMethod`. -/
def CLR_RT_TypeDef_Instance.initializeFromMethod
    (method : CLR_RT_MethodDef_Instance) :
    Option CLR_RT_TypeDef_Instance := do
  let idxType ← method.m_assm.owner method.index.Method
  let m_target ← method.m_assm.typeDefs[idxType.toNat]?
  some {
    index := ⟨setIndex (.ofNat method.index.Assembly) idxType.toUInt32⟩
    m_assm := method.m_assm
    m_target
  }

/-- `SwitchToParent`: nothing behind the last base, and no value where an index
leads outside of a table. -/
def CLR_RT_TypeDef_Instance.switchToParent
    (instance_ : CLR_RT_TypeDef_Instance) :
    Option (Option CLR_RT_TypeDef_Instance) := do
  let extends_ := instance_.m_target.extends_
  if extends_.toNat = CLR_EmptyIndex then
    some none
  else if extends_ &&& 0x8000 ≠ 0 then
    let target ← instance_.m_assm.m_pCrossReference_TypeRef[
      (extends_ &&& 0x7FFF).toNat]?
    initializeFromIndex typeSystem target
  else
    initializeFromIndex typeSystem
      ⟨setIndex (.ofNat instance_.index.Assembly) extends_.toUInt32⟩

end Instances

section Lookups

variable {typeSystem : CLR_RT_TypeSystem}

theorem CLR_RT_TypeDef_Instance.of_initializeFromIndex
    {cls : CLR_RT_TypeDef_Index}
    {inst : CLR_RT_TypeDef_Instance}
    (isClass : initializeFromIndex typeSystem cls = some (some inst)) :
    inst.index = cls ∧ typeSystem.assembly cls.Assembly = some inst.m_assm ∧
      inst.m_assm.typeDefs[cls.Type]? = some inst.m_target := by
  unfold initializeFromIndex at isClass
  split at isClass
  · simp at isClass
  · simp only [Option.bind_eq_bind, Option.bind_eq_some_iff,
      Option.some.injEq] at isClass
    obtain ⟨assembly, isAssembly, target, isTarget, rfl⟩ := isClass
    exact ⟨rfl, isAssembly, isTarget⟩

theorem CLR_RT_MethodDef_Instance.of_initializeFromIndex
    {method : CLR_RT_MethodDef_Index}
    {inst : CLR_RT_MethodDef_Instance}
    (isMethod : initializeFromIndex typeSystem method = some (some inst)) :
    inst.index = method ∧
      typeSystem.assembly method.Assembly = some inst.m_assm ∧
      inst.m_assm.methodDefs[method.Method]? = some inst.m_target := by
  unfold initializeFromIndex at isMethod
  split at isMethod
  · simp at isMethod
  · simp only [Option.bind_eq_bind, Option.bind_eq_some_iff,
      Option.some.injEq] at isMethod
    obtain ⟨assembly, isAssembly, target, isTarget, rfl⟩ := isMethod
    exact ⟨rfl, isAssembly, isTarget⟩

end Lookups

end TypeSystem

end NanoClr
