import NanoClr.Support.ComputeCRC

/-!
# Block storage

The table of a block storage device: its regions, the ranges of blocks in each,
and the region and the range that an address is in.
-/

namespace NanoClr

namespace Pal

/-! ## Types of ranges -/

/-- The usage of ranges with the program. -/
def BlockUsage_CODE : Nat := 0x0020

/-- The usage of ranges with the configuration. -/
def BlockUsage_CONFIG : Nat := 0x0030

/-- The range holds native code. -/
def BlockRange_DATATYPE_NATIVECODE : Nat := 0x1000

/-- The range holds bytes of any kind. -/
def BlockRange_DATATYPE_RAW : Nat := 0x4000

/-- The range is the primary one of its usage. -/
def BlockRange_ATTRIB_PRIMARY : Nat := 0x10000

/-- The range can be executed. -/
def BlockRange_EXECUTABLE : Nat := 0x80000000

/-- The range is reserved. -/
def BlockRange_RESERVED : Nat := 0x40000000

/-- The bits of the usage. -/
def BlockRange_USAGE_MASK : Nat := 0x000000FF

/-- The type of the range with the configuration. -/
def BlockRange_BLOCKTYPE_CONFIG : Nat :=
  BlockRange_ATTRIB_PRIMARY ||| BlockRange_RESERVED |||
    BlockRange_DATATYPE_RAW ||| BlockUsage_CONFIG

/-- The type of the range with the program. -/
def BlockRange_BLOCKTYPE_CODE : Nat :=
  BlockRange_EXECUTABLE ||| BlockRange_RESERVED |||
    BlockRange_DATATYPE_NATIVECODE ||| BlockUsage_CODE

/-! ## The table -/

/-- A range of blocks of one type, with its first and its last block. -/
structure BlockRange where
  rangeType : Nat
  startBlock : Nat
  endBlock : Nat
  deriving Inhabited

/-- A region of blocks of one size, with its ranges. -/
structure BlockRegionInfo where
  start : Nat
  numBlocks : Nat
  bytesPerBlock : Nat
  blockRanges : List BlockRange
  deriving Inhabited

/-- The table of a device. -/
structure DeviceBlockInfo where
  supportsXIP : Bool
  regions : List BlockRegionInfo

namespace BlockRange

/-- `BlockRange_GetBlockCount`. -/
def getBlockCount (range : BlockRange) : Nat :=
  add32 (sub32 range.endBlock range.startBlock) 1

end BlockRange

namespace BlockRegionInfo

/-- The inner loop of the search: the first range that ends behind the
address. -/
def findRange (region : BlockRegionInfo) (address : Nat) :
    Nat → Nat → List BlockRange → Option Nat
  | _, _, [] => none
  | endRangeAddr, index, range :: rest =>
      let endRangeAddr :=
        add32 endRangeAddr (region.bytesPerBlock * range.getBlockCount)
      if address < endRangeAddr then some index
      else findRange region address endRangeAddr (index + 1) rest

/-- The range of an address in a region that it is in. -/
def rangeFromAddress (region : BlockRegionInfo) (address : Nat) : Option Nat :=
  if region.start ≤ address ∧
      address < add32 region.start (region.numBlocks * region.bytesPerBlock)
  then
    region.findRange address
      (add32 region.start
        (region.bytesPerBlock * (region.blockRanges.getD 0 default).startBlock))
      0 region.blockRanges
  else none

end BlockRegionInfo

/-- The outer loop of the search. -/
def findRegion (address : Nat) :
    Nat → List BlockRegionInfo → Option (Nat × Nat)
  | _, [] => none
  | index, region :: rest =>
      match region.rangeFromAddress address with
      | some range => some (index, range)
      | none => findRegion address (index + 1) rest

/-- `DeviceBlockInfo_FindRegionFromAddress`: the indices of the region and of
the range. -/
def DeviceBlockInfo.findRegionFromAddress (info : DeviceBlockInfo)
    (address : Nat) : Option (Nat × Nat) :=
  findRegion address 0 info.regions

end Pal

end NanoClr
