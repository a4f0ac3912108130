import NanoClr.TypeSystem.FindVirtualMethodDef

/-!
# Names of types

The type system writes the full name of a type with its enclosing types and
namespaces, and looks for a type by such a name.
-/

set_option linter.style.nameCheck false

namespace NanoClr

namespace TypeSystem

/-- The character behind a namespace. -/
def dotSign : UInt8 := 0x2E

/-- The character behind an enclosing type. -/
def plusSign : UInt8 := 0x2B

/-- `MAXTYPENAMELEN` -/
def maxTypeNameLength : Nat := 256

/-! ## Writing names -/

/-- The namespace of a type and its dot. -/
def queueNameSpace
    (assm : CLR_RT_Assembly)
    (td : CLR_RECORD_TYPEDEF)
    (buffer : NameBuffer) : Option NameBuffer :=
  if td.nameSpace ≠ CLR_EmptyIndex then do
    let szNameSpace ← assm.getString td.nameSpace
    if szNameSpace ≠ [] then do
      let buffer ← queueStringToBuffer buffer szNameSpace
      queueStringToBuffer buffer dot
    else some buffer
  else some buffer

/-- `BuildTypeName` with the full name and a text between nested types. -/
def buildFullTypeName (separator : Text) (assm : CLR_RT_Assembly) :
    Nat → CLR_RECORD_TYPEDEF → NameBuffer → Option NameBuffer
  | 0, _, _ => none
  | depth + 1, td, buffer => do
      let buffer ←
        if td.enclosingType ≠ CLR_EmptyIndex then do
          let enclosing ← assm.typeDefs[td.enclosingType]?
          let buffer ← buildFullTypeName separator assm depth enclosing buffer
          queueStringToBuffer buffer separator
        else some buffer
      let buffer ← queueNameSpace assm td buffer
      let name ← assm.getString td.name
      queueStringToBuffer buffer name

/-! ## Loaded assemblies -/

/-- The checksums of an assembly. -/
structure CLR_RECORD_ASSEMBLY where
  headerCRC : UInt32
  assemblyCRC : UInt32
deriving DecidableEq

/-- An assembly of an application domain. -/
structure LoadedAssembly where
  m_header : CLR_RECORD_ASSEMBLY
  assm : CLR_RT_Assembly

/-- `IsSameAssembly` -/
def LoadedAssembly.isSameAssembly (this assm : LoadedAssembly) : Bool :=
  this.m_header.headerCRC = assm.m_header.headerCRC &&
    this.m_header.assemblyCRC = assm.m_header.assemblyCRC

/-- The assemblies that are searched; each is loaded, and an index can number
its types. -/
structure AppDomain (typeSystem : CLR_RT_TypeSystem) where
  m_appDomainAssemblies : List LoadedAssembly
  loaded : ∀ pASSM ∈ m_appDomainAssemblies,
    typeSystem.assembly pASSM.assm.m_idx.toNat = some pASSM.assm
  slot : ∀ pASSM ∈ m_appDomainAssemblies, pASSM.assm.m_idx.toNat < 2 ^ 16
  table : ∀ pASSM ∈ m_appDomainAssemblies,
    pASSM.assm.typeDefs.length ≤ CLR_EmptyIndex

/-! ## Searching for names -/

namespace CLR_RT_Assembly

variable (assm : CLR_RT_Assembly)

/-- The index of a type of an assembly. -/
def typeIndex (i : Nat) : CLR_RT_TypeDef_Index :=
  ⟨setIndex assm.m_idx (.ofNat i)⟩

/-- A type that is not nested, of a name and a namespace. -/
def IsNamed (name nameSpace : Text) (target : CLR_RECORD_TYPEDEF) : Prop :=
  target.enclosingType = CLR_EmptyIndex ∧
    assm.getString target.name = some name ∧
    assm.getString target.nameSpace = some nameSpace

/-- A type of a name that is nested in another. -/
def IsNested (name : Text) (scope : Nat) (target : CLR_RECORD_TYPEDEF) :
    Prop :=
  target.enclosingType = scope ∧ assm.getString target.name = some name

instance (name nameSpace : Text) :
    DecidablePred (assm.IsNamed name nameSpace) :=
  fun _ => inferInstanceAs (Decidable (_ ∧ _))

instance (name : Text) (scope : Nat) :
    DecidablePred (assm.IsNested name scope) :=
  fun _ => inferInstanceAs (Decidable (_ ∧ _))

/-- `FindTypeDef` of an assembly, of a name and a namespace. -/
def findTypeDef (name nameSpace : Text) : Option CLR_RT_TypeDef_Index :=
  (assm.typeDefs.findIdx? (assm.IsNamed name nameSpace ·)).map assm.typeIndex

/-- `FindTypeDef` of an assembly, of a name in an enclosing type. -/
def findNestedTypeDef (name : Text) (scope : Nat) :
    Option CLR_RT_TypeDef_Index :=
  (assm.typeDefs.findIdx? (assm.IsNested name scope ·)).map assm.typeIndex

end CLR_RT_Assembly

/-- What is known of a class name up to its first plus sign. -/
structure NameScan where
  szPtr_LastDot : Option Nat
  szPtr_FirstSubType : Option Nat
  szPtr : Nat

/-- The loop over the characters of a class name. -/
def scanName (szPtr_LastDot : Option Nat) (szPtr : Nat) : Text → NameScan
  | [] => ⟨szPtr_LastDot, none, szPtr⟩
  | c :: rest =>
      if c = dotSign then scanName (some szPtr) (szPtr + 1) rest
      else if c = plusSign then ⟨szPtr_LastDot, some szPtr, szPtr⟩
      else scanName szPtr_LastDot (szPtr + 1) rest

namespace NameScan

variable (scan : NameScan) (szClass : Text)

/-- The part in front of the last dot. -/
def rgNamespace : Text :=
  match scan.szPtr_LastDot with
  | some szPtr_LastDot => szClass.take szPtr_LastDot
  | none => []

/-- Without a dot the whole class name is copied. -/
def rgName : Text :=
  match scan.szPtr_LastDot with
  | some szPtr_LastDot =>
      (szClass.drop (szPtr_LastDot + 1)).take
        (scan.szPtr - (szPtr_LastDot + 1))
  | none => szClass

/-- The names of the nested types, each up to the next plus sign. -/
def subTypes : List Text :=
  match scan.szPtr_FirstSubType with
  | some szPtr_FirstSubType =>
      (szClass.drop (szPtr_FirstSubType + 1)).splitOn plusSign
  | none => []

end NameScan

section Search

variable {typeSystem : CLR_RT_TypeSystem}

/-- The loop over the nested types, each searched for in the assembly of the
one before. -/
def findSubTypes (typeSystem : CLR_RT_TypeSystem) :
    List Text → CLR_RT_TypeDef_Index → Option CLR_RT_TypeDef_Index
  | [], res => some res
  | rgName :: names, res =>
      match CLR_RT_TypeDef_Instance.initializeFromIndex typeSystem res with
      | some (some inst) =>
          (inst.m_assm.findNestedTypeDef rgName res.Type).bind
            (findSubTypes typeSystem names)
      | _ => none

/-- `FindTypeDef` of a name and a namespace, restricted to an assembly. -/
def AppDomain.findNamedTypeDef
    (appDomain : AppDomain typeSystem)
    (name nameSpace : Text)
    (assm : LoadedAssembly) : Option CLR_RT_TypeDef_Index :=
  appDomain.m_appDomainAssemblies.findSome? fun pASSM =>
    if pASSM.isSameAssembly assm then pASSM.assm.findTypeDef name nameSpace
    else none

/-- `FindTypeDef` of a class name, restricted to an assembly. -/
def AppDomain.findTypeDef
    (appDomain : AppDomain typeSystem)
    (szClass : Text)
    (assm : LoadedAssembly) : Option CLR_RT_TypeDef_Index :=
  if szClass.length < maxTypeNameLength then
    let scan := scanName none 0 szClass
    (appDomain.findNamedTypeDef (scan.rgName szClass)
      (scan.rgNamespace szClass) assm).bind
        (findSubTypes typeSystem (scan.subTypes szClass))
  else none

end Search

end TypeSystem

end NanoClr
