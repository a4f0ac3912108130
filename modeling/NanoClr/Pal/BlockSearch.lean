import Mathlib.Data.List.Basic
import NanoClr.Pal.BlockStorage

/-!
# Searches of the block table

The region and the range of an address, in any table whose regions do not
overlap and whose ranges have consecutive blocks, and the ranges of a usage,
one behind the other.
-/

namespace NanoClr

namespace Pal

/-- Ranges that cover the blocks from one to another, one behind the other. -/
def RangesCover : Nat → List BlockRange → Nat → Prop
  | first, [], last => first = last
  | first, range :: rest, last =>
      range.startBlock = first ∧ range.startBlock ≤ range.endBlock ∧
        RangesCover (range.endBlock + 1) rest last

namespace BlockRegionInfo

/-- The address behind a region. -/
def finish (region : BlockRegionInfo) : Nat :=
  region.start + region.numBlocks * region.bytesPerBlock

/-- An address is in a region. -/
def Contains (region : BlockRegionInfo) (address : Nat) : Prop :=
  region.start ≤ address ∧ address < region.finish

instance (region : BlockRegionInfo) (address : Nat) :
    Decidable (region.Contains address) :=
  inferInstanceAs (Decidable (_ ∧ _))

/-- The block of an address in the region. -/
def blockOf (region : BlockRegionInfo) (address : Nat) : Nat :=
  (address - region.start) / region.bytesPerBlock

end BlockRegionInfo

/-- The usage that stands for all of them. -/
def BlockUsage_ANY : Nat := 0x0000

/-- The outputs of a search: whether it succeeds, and the two indices. -/
structure Indices where
  found : Bool
  blockRegionIndex : Nat
  blockRangeIndex : Nat
  deriving DecidableEq

namespace BlockRange

/-- The range is of a usage. -/
def HasUsage (blockUsage : Nat) (range : BlockRange) : Prop :=
  range.rangeType &&& BlockRange_USAGE_MASK = blockUsage ∨
    blockUsage = BlockUsage_ANY

instance (blockUsage : Nat) (range : BlockRange) :
    Decidable (range.HasUsage blockUsage) :=
  inferInstanceAs (Decidable (_ ∨ _))

/-- The interval of the range has a block. -/
def HasBlock (block : Nat) (range : BlockRange) : Prop :=
  range.startBlock ≤ block ∧ block ≤ range.endBlock

end BlockRange

/-- `BlockAddress`: where a block of a region starts. -/
def BlockRegionInfo.blockAddress (region : BlockRegionInfo) (block : Nat) :
    Nat :=
  add32 region.start (block * region.bytesPerBlock)

/-- The inner loop: the first range of a usage from an index on. -/
def findUsageRange (blockUsage : Nat) :
    Nat → List BlockRange → Option (Nat × BlockRange)
  | _, [] => none
  | index, range :: rest =>
      if range.HasUsage blockUsage then some (index, range)
      else findUsageRange blockUsage (index + 1) rest

/-- The outer loop: the indices from which it starts, and the regions from
there on. -/
def findUsageRegion (blockUsage : Nat) :
    Nat → Nat → List BlockRegionInfo → Option (Nat × Nat × Nat)
  | _, _, [] => none
  | regionIndex, rangeIndex, region :: rest =>
      match findUsageRange blockUsage rangeIndex
        (region.blockRanges.drop rangeIndex) with
      | some (index, range) =>
          some (region.blockAddress range.startBlock, regionIndex, index)
      | none => findUsageRegion blockUsage (regionIndex + 1) 0 rest

namespace DeviceBlockInfo

/-- `DeviceBlockInfo_FindRegionFromAddress` with its outputs. -/
def findRegionIndices
    (info : DeviceBlockInfo)
    (address blockRangeIndex : Nat) : Indices :=
  match info.findRegionFromAddress address with
  | some (region, range) => ⟨true, region, range⟩
  | none => ⟨false, 0, blockRangeIndex⟩

/-- `DeviceBlockInfo_FindNextUsageBlock`: the address and the indices. -/
def findNextUsageBlock
    (info : DeviceBlockInfo)
    (blockUsage blockRegionIndex blockRangeIndex : Nat) :
    Option (Nat × Nat × Nat) :=
  findUsageRegion blockUsage blockRegionIndex blockRangeIndex
    (info.regions.drop blockRegionIndex)

/-- The range of two indices. -/
def rangeAt
    (info : DeviceBlockInfo)
    (blockRegionIndex blockRangeIndex : Nat) :
    Option (BlockRegionInfo × BlockRange) :=
  match info.regions[blockRegionIndex]? with
  | none => none
  | some region =>
      match region.blockRanges[blockRangeIndex]? with
      | none => none
      | some range => some (region, range)

/-- The range of two indices has the block of an address of its region. -/
def Locates
    (info : DeviceBlockInfo)
    (address blockRegionIndex blockRangeIndex : Nat) : Prop :=
  ∃ region range,
    info.rangeAt blockRegionIndex blockRangeIndex = some (region, range) ∧
      region.Contains address ∧ range.HasBlock (region.blockOf address)

end DeviceBlockInfo

/-! ## Tables with consecutive blocks -/

namespace BlockRegionInfo

/-- The ranges have consecutive blocks of a region of the address space. -/
structure Consecutive (region : BlockRegionInfo) : Prop where
  fits : region.finish ≤ 2 ^ 32
  cover : ∃ first last,
    RangesCover first region.blockRanges last ∧ last ≤ region.numBlocks

/-- The address lies in front of the ranges of its region. -/
def InFront (region : BlockRegionInfo) (address : Nat) : Prop :=
  match region.blockRanges with
  | [] => False
  | range :: _ => region.blockOf address < range.startBlock

/-- The arithmetic of the search is right for an address: in a region that
ends with the address space the address has no range, and elsewhere it does not
lie in front of the ranges. -/
def SearchedRight (region : BlockRegionInfo) (address : Nat) : Prop :=
  region.Contains address →
    if region.finish = 2 ^ 32 then
      ∀ range ∈ region.blockRanges, ¬range.HasBlock (region.blockOf address)
    else ¬region.InFront address

end BlockRegionInfo

/-- No address is in two regions, and the ranges have consecutive blocks. -/
structure DeviceBlockInfo.Consecutive (info : DeviceBlockInfo) : Prop where
  regions : ∀ region ∈ info.regions, region.Consecutive
  apart : info.regions.Pairwise fun left right =>
    ∀ address, left.Contains address → ¬right.Contains address

section Ranges

variable
  {first last block : Nat}
  {ranges : List BlockRange}

theorem RangesCover.le (cover : RangesCover first ranges last) :
    first ≤ last := by
  induction ranges generalizing first with
  | nil => exact Nat.le_of_eq cover
  | cons range rest inductionHypothesis =>
      obtain ⟨isFirst, ordered, covers⟩ := cover
      have later := inductionHypothesis covers
      omega

theorem RangesCover.bounds
    (cover : RangesCover first ranges last)
    {range : BlockRange}
    (member : range ∈ ranges) :
    first ≤ range.startBlock ∧ range.endBlock < last := by
  induction ranges generalizing first with
  | nil => cases member
  | cons next rest inductionHypothesis =>
      obtain ⟨isFirst, ordered, covers⟩ := cover
      have later := covers.le
      rcases List.mem_cons.mp member with rfl | member
      · omega
      · have inside := inductionHypothesis covers member
        omega

variable {region : BlockRegionInfo} {address : Nat}

theorem BlockRegionInfo.bytes_pos
    (contains : region.Contains address) :
    0 < region.bytesPerBlock := by
  apply Nat.pos_of_ne_zero
  intro none_
  obtain ⟨above, below⟩ := contains
  rw [BlockRegionInfo.finish, none_, Nat.mul_zero] at below
  omega

/-- An address is in front of a block when its own block is. -/
theorem BlockRegionInfo.lt_block_iff
    (contains : region.Contains address) :
    address < region.start + block * region.bytesPerBlock ↔
      region.blockOf address < block := by
  rw [BlockRegionInfo.blockOf,
    Nat.div_lt_iff_lt_mul (BlockRegionInfo.bytes_pos contains)]
  have above := contains.1
  omega

/-- The end of the next range, as the search computes it. -/
theorem endRangeAddr_eq
    {range : BlockRange}
    (fits : region.finish < 2 ^ 32)
    (within : range.endBlock + 1 ≤ region.numBlocks)
    (bytes : 0 < region.bytesPerBlock)
    (ordered : range.startBlock ≤ range.endBlock) :
    add32 (region.start + range.startBlock * region.bytesPerBlock)
        (region.bytesPerBlock * range.getBlockCount) =
      region.start + (range.endBlock + 1) * region.bytesPerBlock := by
  have endFits : (range.endBlock + 1) * region.bytesPerBlock ≤
      region.numBlocks * region.bytesPerBlock :=
    Nat.mul_le_mul_right _ within
  have small : range.endBlock + 1 ≤
      (range.endBlock + 1) * region.bytesPerBlock :=
    Nat.le_mul_of_pos_right _ bytes
  rw [BlockRegionInfo.finish] at fits
  have count : range.getBlockCount = range.endBlock + 1 - range.startBlock := by
    rw [BlockRange.getBlockCount, add32, sub32]
    omega
  have parts : (range.endBlock + 1) * region.bytesPerBlock =
      range.startBlock * region.bytesPerBlock +
        region.bytesPerBlock * (range.endBlock + 1 - range.startBlock) := by
    rw [Nat.mul_comm region.bytesPerBlock, ← Nat.add_mul]
    congr 1
    omega
  rw [count, add32]
  omega

/-- The search in a region finds the range of a block, where the block is not
in front of all ranges. -/
theorem findRange_eq_some_iff
    (index : Nat)
    {found : Nat}
    (fits : region.finish < 2 ^ 32)
    (contains : region.Contains address)
    (cover : RangesCover first ranges last)
    (within : last ≤ region.numBlocks)
    (notInFront : first ≤ region.blockOf address) :
    region.findRange address
        (region.start + first * region.bytesPerBlock) index ranges =
        some found ↔
      ∃ position range, found = index + position ∧
        ranges[position]? = some range ∧
        range.HasBlock (region.blockOf address) := by
  have bytes := BlockRegionInfo.bytes_pos contains
  induction ranges generalizing first index with
  | nil => simp [BlockRegionInfo.findRange]
  | cons range rest inductionHypothesis =>
      obtain ⟨rfl, ordered, covers⟩ := cover
      have lastBlock := covers.le
      rw [BlockRegionInfo.findRange]
      simp only [endRangeAddr_eq fits (Nat.le_trans lastBlock within) bytes
        ordered, BlockRegionInfo.lt_block_iff contains]
      by_cases inRange : region.blockOf address < range.endBlock + 1
      · rw [if_pos inRange, Option.some.injEq]
        constructor
        · rintro rfl
          exact ⟨0, range, rfl, rfl, notInFront, Nat.le_of_lt_succ inRange⟩
        · rintro ⟨position, other, rfl, isRange, hasBlock⟩
          cases position with
          | zero => rfl
          | succ position =>
              have later :=
                covers.bounds (List.mem_of_getElem? isRange)
              have starts := hasBlock.1
              omega
      · rw [if_neg inRange]
        refine (inductionHypothesis (index + 1) covers
          (Nat.le_of_not_lt inRange)).trans ?_
        constructor
        · rintro ⟨position, other, rfl, isRange, hasBlock⟩
          exact ⟨position + 1, other, by omega, isRange, hasBlock⟩
        · rintro ⟨position, other, rfl, isRange, hasBlock⟩
          cases position with
          | zero =>
              cases isRange
              exact absurd (Nat.lt_succ_of_le hasBlock.2) inRange
          | succ position =>
              exact ⟨position, other, by omega, isRange, hasBlock⟩

end Ranges

/-! ## Regions -/

namespace BlockRegionInfo

variable {region : BlockRegionInfo} {address : Nat}

theorem Consecutive.rangeFromAddress_outside
    (consecutive : region.Consecutive)
    (outside : ¬region.Contains address) :
    region.rangeFromAddress address = none := by
  have fits := consecutive.fits
  rw [rangeFromAddress]
  apply if_neg
  rintro ⟨above, below⟩
  apply outside
  refine ⟨above, ?_⟩
  rw [add32] at below
  rw [finish] at fits ⊢
  omega

/-- The end of a region that ends with the address space wraps around. -/
theorem rangeFromAddress_atEnd
    (atEnd : region.finish = 2 ^ 32) :
    region.rangeFromAddress address = none := by
  rw [rangeFromAddress]
  apply if_neg
  rintro ⟨-, below⟩
  rw [add32, ← finish, atEnd, Nat.mod_self] at below
  cases below

theorem rangeFromAddress_eq
    (fits : region.finish < 2 ^ 32)
    (contains : region.Contains address)
    {range : BlockRange}
    {rest : List BlockRange}
    (isList : region.blockRanges = range :: rest)
    (inside : range.startBlock ≤ region.numBlocks) :
    region.rangeFromAddress address =
      region.findRange address
        (region.start + range.startBlock * region.bytesPerBlock) 0
        region.blockRanges := by
  have ends : add32 region.start (region.numBlocks * region.bytesPerBlock) =
      region.finish := by
    rw [add32, ← finish, Nat.mod_eq_of_lt fits]
  have fewer : range.startBlock * region.bytesPerBlock ≤
      region.numBlocks * region.bytesPerBlock :=
    Nat.mul_le_mul_right _ inside
  have begins : add32 region.start (region.bytesPerBlock *
      (region.blockRanges.getD 0 default).startBlock) =
        region.start + range.startBlock * region.bytesPerBlock := by
    rw [finish] at fits
    rw [isList, List.getD_cons_zero, Nat.mul_comm, add32]
    omega
  rw [rangeFromAddress, ends, begins]
  exact if_pos contains

/-- An address in front of the ranges is taken to be in the first one. -/
theorem Consecutive.rangeFromAddress_inFront
    (consecutive : region.Consecutive)
    (fits : region.finish < 2 ^ 32)
    (contains : region.Contains address)
    (inFront : region.InFront address) :
    region.rangeFromAddress address = some 0 ∧
      ∀ range ∈ region.blockRanges, ¬range.HasBlock (region.blockOf address) := by
  obtain ⟨first, last, cover, within⟩ := consecutive.cover
  cases isList : region.blockRanges with
  | nil =>
      rw [InFront, isList] at inFront
      exact inFront.elim
  | cons range rest =>
      rw [InFront, isList] at inFront
      simp only at inFront
      rw [isList] at cover
      have isFirst := cover.1
      have ordered := cover.2.1
      have lastBlock := cover.2.2.le
      have bytes := bytes_pos contains
      constructor
      · rw [rangeFromAddress_eq fits contains isList (by omega), isList, findRange]
        simp only [endRangeAddr_eq fits (Nat.le_trans lastBlock within) bytes
          ordered, lt_block_iff contains]
        exact if_pos (by omega)
      · intro other member hasBlock
        have starts := cover.bounds member
        have above := hasBlock.1
        omega

theorem Consecutive.rangeFromAddress_iff
    (consecutive : region.Consecutive)
    (fits : region.finish < 2 ^ 32)
    (contains : region.Contains address)
    (notInFront : ¬region.InFront address)
    {found : Nat} :
    region.rangeFromAddress address = some found ↔
      ∃ range, region.blockRanges[found]? = some range ∧
        range.HasBlock (region.blockOf address) := by
  obtain ⟨first, last, cover, within⟩ := consecutive.cover
  cases isList : region.blockRanges with
  | nil =>
      have nothing : region.rangeFromAddress address = none := by
        rw [rangeFromAddress, isList]
        exact ite_self none
      simp [nothing]
  | cons range rest =>
      rw [InFront, isList] at notInFront
      simp only at notInFront
      rw [isList] at cover
      have isFirst := cover.1
      have lastBlock := cover.2.2.le
      have ordered := cover.2.1
      rw [rangeFromAddress_eq fits contains isList (by omega), isFirst, isList,
        findRange_eq_some_iff 0 fits contains cover within (by omega)]
      constructor
      · rintro ⟨position, range, rfl, isRange, hasBlock⟩
        rw [Nat.zero_add]
        exact ⟨range, isRange, hasBlock⟩
      · rintro ⟨range, isRange, hasBlock⟩
        exact ⟨found, range, (Nat.zero_add found).symm, isRange, hasBlock⟩

/-- The search in a region is right for an address exactly when its arithmetic
is. -/
theorem Consecutive.search_iff
    (consecutive : region.Consecutive) :
    (∀ found, region.rangeFromAddress address = some found ↔
      region.Contains address ∧
        ∃ range, region.blockRanges[found]? = some range ∧
          range.HasBlock (region.blockOf address)) ↔
      region.SearchedRight address := by
  unfold SearchedRight
  by_cases contains : region.Contains address
  · simp only [contains, true_and, forall_const]
    by_cases atEnd : region.finish = 2 ^ 32
    · rw [if_pos atEnd]
      simp only [rangeFromAddress_atEnd atEnd, reduceCtorEq, false_iff]
      constructor
      · intro nowhere range member hasBlock
        obtain ⟨found, isRange⟩ := List.mem_iff_getElem?.mp member
        exact nowhere found ⟨range, isRange, hasBlock⟩
      · rintro nowhere found ⟨range, isRange, hasBlock⟩
        exact nowhere range (List.mem_of_getElem? isRange) hasBlock
    · rw [if_neg atEnd]
      have fits : region.finish < 2 ^ 32 :=
        Nat.lt_of_le_of_ne consecutive.fits atEnd
      constructor
      · intro right inFront
        obtain ⟨first, nowhere⟩ :=
          consecutive.rangeFromAddress_inFront fits contains inFront
        obtain ⟨range, isRange, hasBlock⟩ := (right 0).mp first
        exact nowhere range (List.mem_of_getElem? isRange) hasBlock
      · intro notInFront found
        exact consecutive.rangeFromAddress_iff fits contains notInFront
  · have nothing := consecutive.rangeFromAddress_outside contains
    simp [contains, nothing]

end BlockRegionInfo

/-! ## Tables -/

section Tables

variable {info : DeviceBlockInfo} {address : Nat}

/-- The search finds the one region that has a range for the address. -/
theorem findRegion_eq_some_iff
    (index : Nat)
    {foundRegion foundRange : Nat}
    {regions : List BlockRegionInfo}
    (consecutive : ∀ region ∈ regions, region.Consecutive)
    (apart : regions.Pairwise fun left right =>
      ∀ address, left.Contains address → ¬right.Contains address) :
    findRegion address index regions = some (foundRegion, foundRange) ↔
      ∃ position region, foundRegion = index + position ∧
        regions[position]? = some region ∧
        region.rangeFromAddress address = some foundRange := by
  induction regions generalizing index with
  | nil => simp [findRegion]
  | cons region rest inductionHypothesis =>
      rw [List.forall_mem_cons] at consecutive
      rw [List.pairwise_cons] at apart
      rw [findRegion]
      cases found : region.rangeFromAddress address with
      | some range =>
          simp only [Option.some.injEq, Prod.mk.injEq]
          constructor
          · rintro ⟨rfl, rfl⟩
            exact ⟨0, region, rfl, rfl, found⟩
          · rintro ⟨position, other, rfl, isRegion, isFound⟩
            cases position with
            | zero =>
                cases isRegion
                rw [found] at isFound
                exact ⟨rfl, Option.some.inj isFound⟩
            | succ position =>
                have member : other ∈ rest := List.mem_of_getElem? isRegion
                have here : region.Contains address := by
                  by_contra outside
                  rw [consecutive.1.rangeFromAddress_outside outside] at found
                  cases found
                have there : other.Contains address := by
                  by_contra outside
                  rw [(consecutive.2 other member).rangeFromAddress_outside
                    outside] at isFound
                  cases isFound
                exact absurd there (apart.1 other member address here)
      | none =>
          simp only []
          rw [inductionHypothesis (index + 1) consecutive.2 apart.2]
          constructor
          · rintro ⟨position, other, rfl, isRegion, isFound⟩
            exact ⟨position + 1, other, by omega, isRegion, isFound⟩
          · rintro ⟨position, other, rfl, isRegion, isFound⟩
            cases position with
            | zero =>
                cases isRegion
                rw [found] at isFound
                cases isFound
            | succ position =>
                exact ⟨position, other, by omega, isRegion, isFound⟩

theorem DeviceBlockInfo.locates_iff_region
    {foundRegion foundRange : Nat} :
    info.Locates address foundRegion foundRange ↔
      ∃ region, info.regions[foundRegion]? = some region ∧
        region.Contains address ∧
          ∃ range, region.blockRanges[foundRange]? = some range ∧
            range.HasBlock (region.blockOf address) := by
  unfold Locates rangeAt
  constructor
  · rintro ⟨region, range, located, contains, hasBlock⟩
    split at located
    · cases located
    · next isRegion =>
        split at located
        · cases located
        · next isRange =>
            cases located
            exact ⟨region, isRegion, contains, range, isRange, hasBlock⟩
  · rintro ⟨region, isRegion, contains, range, isRange, hasBlock⟩
    refine ⟨region, range, ?_, contains, hasBlock⟩
    simp only [isRegion, isRange]

/-- An address is found where it is, and nowhere else, exactly when the
arithmetic of the search is right in every region. -/
theorem DeviceBlockInfo.Consecutive.locates_iff
    (consecutive : info.Consecutive) :
    (∀ region range, info.findRegionFromAddress address = some (region, range) ↔
      info.Locates address region range) ↔
      ∀ region ∈ info.regions, region.SearchedRight address := by
  have found : ∀ region range,
      info.findRegionFromAddress address = some (region, range) ↔
        ∃ block, info.regions[region]? = some block ∧
          block.rangeFromAddress address = some range := by
    intro region range
    rw [findRegionFromAddress,
      findRegion_eq_some_iff 0 consecutive.regions consecutive.apart]
    constructor
    · rintro ⟨position, block, rfl, isRegion, isFound⟩
      rw [Nat.zero_add]
      exact ⟨block, isRegion, isFound⟩
    · rintro ⟨block, isRegion, isFound⟩
      exact ⟨region, block, (Nat.zero_add region).symm, isRegion, isFound⟩
  constructor
  · intro right region member
    obtain ⟨index, isRegion⟩ := List.mem_iff_getElem?.mp member
    rw [← (consecutive.regions region member).search_iff]
    intro range
    have here := right index range
    rw [found, locates_iff_region] at here
    simpa [isRegion] using here
  · intro right index range
    rw [found, locates_iff_region]
    apply exists_congr
    intro region
    apply and_congr_right
    intro isRegion
    have member := List.mem_of_getElem? isRegion
    exact (consecutive.regions region member).search_iff.mpr
      (right region member) range

end Tables

end Pal

end NanoClr
