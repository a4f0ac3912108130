import NanoClr.TypeSystem.Metadata

/-!
# Method signatures

Signatures are read element by element.  Two methods match when the elements
of their signatures agree one by one.
-/

namespace NanoClr

namespace TypeSystem

/-! ## Tokens -/

/-- `CLR_UncompressData`, with the rest of the signature. -/
def CLR_UncompressData : List UInt8 → Option (UInt32 × List UInt8)
  | [] => none
  | val :: p =>
      if val &&& 0x80 = 0x00 then
        some (val.toUInt32, p)
      else if val &&& 0xC0 = 0x80 then
        match p with
        | [] => none
        | low :: p =>
            some ((val &&& 0x3F).toUInt32 <<< 8 ||| low.toUInt32, p)
      else
        match p with
        | second :: third :: low :: p =>
            some ((val &&& 0x1F).toUInt32 <<< 24 |||
              second.toUInt32 <<< 16 |||
              third.toUInt32 <<< 8 |||
              low.toUInt32, p)
        | _ => none

/-- The tables that a type token can name; `TBL_Max` is no table. -/
inductive TypeTable where
  | TBL_TypeDef
  | TBL_TypeRef
  | TBL_TypeSpec
  | TBL_Max
deriving DecidableEq

/-- The table that the two low bits of a token in a signature choose. -/
def TypeTable.lookup (data : UInt32) : TypeTable :=
  match (data &&& 3).toNat with
  | 0 => .TBL_TypeDef
  | 1 => .TBL_TypeRef
  | 2 => .TBL_TypeSpec
  | _ => .TBL_Max

/-- `CLR_TkFromStream`: the table and the data of a token. -/
def CLR_TkFromStream (sig : List UInt8) :
    Option ((TypeTable × UInt32) × List UInt8) := do
  let (data, rest) ← CLR_UncompressData sig
  some ((.lookup data, data >>> 2 &&& 0x00FFFFFF), rest)

/-! ## Elements -/

/-- An element of a signature. -/
structure Element where
  m_fByRef : Bool
  m_levels : Nat
  m_dt : UInt8
  m_cls : CLR_RT_TypeDef_Index
deriving DecidableEq

/-- The tag of no value. -/
def DATATYPE_VOID : UInt8 := 0

/-- The tag of an object. -/
def DATATYPE_OBJECT : UInt8 := 16

/-- The tag of a class, which an index follows. -/
def DATATYPE_CLASS : UInt8 := 17

/-- The tag of a structure, which an index follows. -/
def DATATYPE_VALUETYPE : UInt8 := 18

/-- The tag of an array of what follows. -/
def DATATYPE_SZARRAY : UInt8 := 19

/-- The tag of a reference to what follows. -/
def DATATYPE_BYREF : UInt8 := 20

/-- The first tag that there is not. -/
def DATATYPE_FIRST_INVALID : Nat := 54

/-- The classes of `c_CLR_RT_DataTypeLookup`, from `DATATYPE_BOOLEAN` to
`DATATYPE_STRING`. -/
def c_CLR_RT_DataTypeLookup (wellKnown : CLR_RT_WellKnownTypes) :
    List CLR_RT_TypeDef_Index :=
  [
    wellKnown.m_Boolean,
    wellKnown.m_Int8,
    wellKnown.m_UInt8,
    wellKnown.m_Char,
    wellKnown.m_Int16,
    wellKnown.m_UInt16,
    wellKnown.m_Int32,
    wellKnown.m_UInt32,
    wellKnown.m_Single,
    wellKnown.m_Int64,
    wellKnown.m_UInt64,
    wellKnown.m_Double,
    wellKnown.m_DateTime,
    wellKnown.m_TimeSpan,
    wellKnown.m_String
  ]

/-- The class behind a data type; behind the last data type the table is
left. -/
def dataTypeClass (wellKnown : CLR_RT_WellKnownTypes) (dt : UInt8) :
    Option (Option CLR_RT_TypeDef_Index) :=
  if dt = DATATYPE_OBJECT then some (some wellKnown.m_Object)
  else if dt = DATATYPE_VOID then some (some wellKnown.m_Void)
  else if DATATYPE_FIRST_INVALID ≤ dt.toNat then none
  else some (c_CLR_RT_DataTypeLookup wellKnown)[dt.toNat - 1]?

section Advance

variable (typeSystem : CLR_RT_TypeSystem) (assm : CLR_RT_Assembly)

/-- `ResolveToken` of a type definition or a type reference. -/
def resolveToken :
    TypeTable → UInt32 → Option (Option CLR_RT_TypeDef_Index)
  | .TBL_TypeRef, index => do
      let target ← assm.m_pCrossReference_TypeRef[index.toNat]?
      let _ ← typeSystem.assembly target.Assembly
      some (some target)
  | .TBL_TypeDef, index => some (some ⟨setIndex assm.m_idx index⟩)
  | _, _ => some none

/-- The loop of `Advance` over the bytes of a type, `none` inside where the
type is wrong. -/
def advanceType
    (typeSpecElement : UInt32 → Option (Option Element))
    (m_fByRef : Bool)
    (m_levels : Nat) :
    List UInt8 → Option (Option (Element × List UInt8))
  | [] => none
  | m_dt :: m_sig =>
      if m_dt = DATATYPE_BYREF then
        if m_fByRef then some none
        else advanceType typeSpecElement true m_levels m_sig
      else if m_dt = DATATYPE_SZARRAY then
        advanceType typeSpecElement m_fByRef (m_levels + 1) m_sig
      else if m_dt = DATATYPE_CLASS ∨ m_dt = DATATYPE_VALUETYPE then do
        let ((table, index), m_sig) ← CLR_TkFromStream m_sig
        if table = .TBL_TypeSpec then
          let sub ← typeSpecElement index
          some (sub.map fun element =>
            ({ element with m_levels := element.m_levels + m_levels }, m_sig))
        else
          let cls ← resolveToken typeSystem assm table index
          some (cls.map fun m_cls =>
            ({ m_fByRef, m_levels, m_dt, m_cls }, m_sig))
      else do
        let cls ← dataTypeClass typeSystem.g_CLR_RT_WellKnownTypes m_dt
        some (cls.map fun m_cls => ({ m_fByRef, m_levels, m_dt, m_cls }, m_sig))

/-- The element of a type specification; one that is nested deeper than there
are specifications contains itself. -/
def typeSpecElement : Nat → UInt32 → Option (Option Element)
  | 0, _ => none
  | depth + 1, index => do
      let sig ← assm.typeSpecs[lowHalf index]?
      let element ← advanceType typeSystem assm (typeSpecElement depth) false 0
        (assm.signatures.drop sig)
      some (element.map Prod.fst)

/-- `Advance` on a method signature. -/
def advance (m_sig : List UInt8) :
    Option (Option (Element × List UInt8)) :=
  advanceType typeSystem assm
    (typeSpecElement typeSystem assm assm.typeSpecs.length) false 0 m_sig

end Advance

/-! ## Matching -/

/-- A signature on its way: the bytes that are left, and how many elements they
are. -/
structure CLR_RT_SignatureParser where
  m_assm : CLR_RT_Assembly
  m_sig : List UInt8
  m_flags : UInt8
  m_count : Nat

/-- `Initialize_MethodSignature`: the return value counts as an element. -/
def initialize_MethodSignature (assm : CLR_RT_Assembly)
    (md : CLR_RECORD_METHODDEF) : Option CLR_RT_SignatureParser :=
  match assm.signatures.drop md.sig with
  | m_flags :: count :: m_sig =>
      some { m_assm := assm, m_sig, m_flags, m_count := count.toNat + 1 }
  | _ => none

/-- `MatchSignatureElement` without instances of subclasses. -/
def matchSignatureElement (resLeft resRight : Element) : Bool :=
  resLeft.m_fByRef = resRight.m_fByRef ∧
    resLeft.m_levels = resRight.m_levels ∧
    resLeft.m_dt = resRight.m_dt ∧
    resLeft.m_cls = resRight.m_cls

section Match

variable (typeSystem : CLR_RT_TypeSystem) (assmLeft assmRight : CLR_RT_Assembly)

/-- The rounds of `MatchSignatureDirect` while elements are available. -/
def matchElements :
    Nat → List UInt8 → List UInt8 → Option Bool
  | 0, _, _ => some true
  | available + 1, left, right => do
      match ← advance typeSystem assmLeft left with
      | none => some false
      | some (resLeft, left) =>
          match ← advance typeSystem assmRight right with
          | none => some false
          | some (resRight, right) =>
              if matchSignatureElement resLeft resRight then
                matchElements available left right
              else
                some false

end Match

/-- `MatchSignatureDirect` where an instance of a type is not enough. -/
def matchSignatureDirect (typeSystem : CLR_RT_TypeSystem)
    (parserLeft parserRight : CLR_RT_SignatureParser) : Option Bool :=
  if parserLeft.m_count ≠ parserRight.m_count then some false
  else matchElements typeSystem parserLeft.m_assm parserRight.m_assm
    parserLeft.m_count parserLeft.m_sig parserRight.m_sig

/-- `MatchSignature` of two method signatures. -/
def matchSignature (typeSystem : CLR_RT_TypeSystem)
    (parserLeft parserRight : CLR_RT_SignatureParser) : Option Bool :=
  if parserLeft.m_flags ≠ parserRight.m_flags then some false
  else matchSignatureDirect typeSystem parserLeft parserRight

end TypeSystem

end NanoClr
