import NanoClr.Support.ComputeCRC

/-!
# Assembly headers

The fields of an assembly's header that the checks read, and the checks.
-/

namespace NanoClr

namespace Startup

/-- `sizeof(CLR_RECORD_ASSEMBLY)`. -/
def headerInBytes : Nat := 124

/-- The version of the string table. -/
def c_CLR_StringTable_Version : Nat := 1

/-- `"NFMRK1"` with its terminator. -/
def c_MARKER_ASSEMBLY_V1 : List UInt8 :=
  [0x4E, 0x46, 0x4D, 0x52, 0x4B, 0x31, 0x00]

section Fields

variable (bytes : Bytes) (header : Nat)

/-- `headerCRC` of an assembly. -/
def headerCRC : Nat := readUInt32 bytes (header + 8)

/-- `assemblyCRC` of an assembly. -/
def assemblyCRC : Nat := readUInt32 bytes (header + 12)

/-- `stringTableVersion` of an assembly. -/
def stringTableVersion : Nat := readUInt16 bytes (header + 38)

/-- The end of the last table. -/
def totalSize : Nat := readUInt32 bytes (header + 100)

/-- `ROUNDTOMULTIPLE` of the total size to words. -/
def roundedSize : Nat := (totalSize bytes header + 3) % 2 ^ 32 / 4 * 4

/-- The header with its checksum cleared. -/
def clearHeaderCRC : Bytes := fun address =>
  if header + 8 ≤ address ∧ address < header + 12 then 0 else bytes address

/-- `GoodHeader`: the checksum of the header, the version and the marker are
right. -/
def goodHeader : Bool :=
  SUPPORT_ComputeCRC (clearHeaderCRC bytes header) header headerInBytes 0 =
      headerCRC bytes header ∧
    stringTableVersion bytes header = c_CLR_StringTable_Version ∧
    (List.range c_MARKER_ASSEMBLY_V1.length).map
        (fun index => bytes (header + index)) = c_MARKER_ASSEMBLY_V1

/-- How many bytes behind the header the second checksum is over. -/
def bodyInBytes : Nat := sub32 (totalSize bytes header) headerInBytes

/-- `GoodAssembly`: the header is good, and the checksum of the rest is
right. -/
def goodAssembly : Bool :=
  goodHeader bytes header ∧
    SUPPORT_ComputeCRC bytes (header + headerInBytes)
        (bodyInBytes bytes header) 0 = assemblyCRC bytes header

end Fields

theorem totalSize_le_roundedSize
    {bytes : Bytes}
    {header : Nat}
    (positive : 0 < roundedSize bytes header) :
    totalSize bytes header ≤ roundedSize bytes header := by
  have isWord : totalSize bytes header < 2 ^ 32 := readUInt32_lt _ _
  rw [roundedSize] at positive ⊢
  omega

theorem roundedSize_le (bytes : Bytes) (header : Nat) :
    roundedSize bytes header ≤ 2 ^ 32 - 4 := by
  rw [roundedSize]
  omega

end Startup

end NanoClr
