import NanoClr.Library.Cells

/-!
# Configuration blocks

The scans of the configuration sector for the blocks of a kind, and the
collections that they fill. The sector lies in the addresses with room for a
block behind it, and the memory for a collection is taken to be allocated.
-/

namespace NanoClr

namespace Hal

/-- The marker of a network configuration. -/
def c_MARKER_CONFIGURATION_NETWORK_V1 : List UInt8 := [0x43, 0x4E, 0x31, 0]

/-- The marker of a wireless configuration. -/
def c_MARKER_CONFIGURATION_WIRELESS80211_V1 : List UInt8 :=
  [0x57, 0x4E, 0x31, 0]

/-- The marker of a bundle of certificates. -/
def c_MARKER_CONFIGURATION_X509CAROOTBUNDLE_V1 : List UInt8 :=
  [0x58, 0x42, 0x31, 0]

/-- The size of the packed `HAL_Configuration_NetworkInterface`: the marker, the
MAC address, five IPv4 and five IPv6 addresses, and the last four fields. -/
def sizeof_NetworkInterface : Nat := 4 + 6 + 5 * 4 + 5 * 16 + 1 + 4 + 1 + 1

/-- The size of the packed `HAL_Configuration_Wireless80211`. -/
def sizeof_Wireless80211 : Nat := 4 + 4 + 1 + 1 + 1 + 32 + 64

/-- The offset of the pointers in each of the three collections. -/
def offsetof_Configs : Nat := 4

/-- The bytes of an address. -/
def sizeof_pointer : Nat := 4

/-- The offset of the certificate in `HAL_Configuration_X509CaRootBundle`. -/
def offsetof_Certificate : Nat := 8

/-- What a kind of blocks starts with, and how far the count goes on behind a
block. -/
structure BlockKind where
  marker : List UInt8
  blockSize : Nat
  blockSize_pos : 0 < blockSize

/-- The network configurations. -/
def networkBlocks : BlockKind where
  marker := c_MARKER_CONFIGURATION_NETWORK_V1
  blockSize := sizeof_NetworkInterface
  blockSize_pos := by decide

/-- The wireless configurations. -/
def wirelessBlocks : BlockKind where
  marker := c_MARKER_CONFIGURATION_WIRELESS80211_V1
  blockSize := sizeof_Wireless80211
  blockSize_pos := by decide

/-- The size of the certificates is not known, and the count goes on behind the
first byte. -/
def certificateBlocks : BlockKind where
  marker := c_MARKER_CONFIGURATION_X509CAROOTBUNDLE_V1
  blockSize := 1
  blockSize_pos := by decide

section Scans

variable (memory : Nat → UInt8) (marker : List UInt8) (endAddress : Nat)

/-- The marker is at an address. -/
def HasMarker (cursor : Nat) : Prop :=
  cellsAt memory cursor 4 = marker

instance (cursor : Nat) : Decidable (HasMarker memory marker cursor) :=
  inferInstanceAs (Decidable (_ = _))

/-- `FindNextBlock`: the next address with the marker, or the first one that is
too near to the end. -/
def FindNextBlock (cursor : Nat) : Nat :=
  if cursor < endAddress - 4 then
    if HasMarker memory marker cursor then cursor
    else FindNextBlock (cursor + 1)
  else cursor
termination_by endAddress - cursor

/-- The second pass: the address of each block. -/
def findBlocks : Nat → Nat → List Nat
  | 0, _ => []
  | blockCount + 1, nextBlock =>
      let nextBlock := FindNextBlock memory marker endAddress nextBlock
      nextBlock :: findBlocks blockCount nextBlock

end Scans

section Counts

variable (memory : Nat → UInt8) (kind : BlockKind) (endAddress : Nat)

/-- `GetBlockCount`, from a cursor and a count on. -/
def getBlockCount (cursor blockCount : Nat) : Nat :=
  if cursor < endAddress - 4 then
    if HasMarker memory kind.marker cursor then
      getBlockCount (cursor + kind.blockSize) (blockCount + 1)
    else getBlockCount (cursor + 1) blockCount
  else blockCount
termination_by endAddress - cursor
decreasing_by
  · have positive := kind.blockSize_pos
    omega
  · omega

/-- `GetBlockCount` of the whole sector. -/
def GetBlockCount (startAddress : Nat) : Nat :=
  getBlockCount memory kind endAddress startAddress 0

/-- The blocks that are counted. -/
def countedBlocks (cursor : Nat) : List Nat :=
  if cursor < endAddress - 4 then
    if HasMarker memory kind.marker cursor then
      cursor :: countedBlocks (cursor + kind.blockSize)
    else countedBlocks (cursor + 1)
  else []
termination_by endAddress - cursor
decreasing_by
  · have positive := kind.blockSize_pos
    omega
  · omega

end Counts

/-- A collection: its count, the entries that were written and the bytes that
were allocated for it. -/
structure BlockCollection where
  Count : Nat
  entries : List Nat
  allocated : Nat

section Collections

variable (memory : Nat → UInt8) (startAddress endAddress : Nat)

/-- A collection of blocks of a known size. -/
def findConfigurationBlocks (kind : BlockKind) : BlockCollection :=
  let blockCount := GetBlockCount memory kind endAddress startAddress
  { Count := blockCount % 2 ^ 8
    entries := findBlocks memory kind.marker endAddress blockCount startAddress
    allocated := (offsetof_Configs + blockCount * sizeof_pointer) % 2 ^ 32 }

/-- `ConfigurationManager_FindNetworkConfigurationBlocks`. -/
def ConfigurationManager_FindNetworkConfigurationBlocks : BlockCollection :=
  findConfigurationBlocks memory startAddress endAddress networkBlocks

/-- `ConfigurationManager_FindNetworkWireless80211ConfigurationBlocks`. -/
def ConfigurationManager_FindNetworkWireless80211ConfigurationBlocks :
    BlockCollection :=
  findConfigurationBlocks memory startAddress endAddress wirelessBlocks

/-- The field `CertificateSize` of a block. -/
def certificateSize (block : Nat) : Nat :=
  ((cellsAt memory (block + 4) 4).map UInt8.toNat).foldr
    (fun byte number => byte + 2 ^ 8 * number) 0

/-- The pass that computes the size of the certificates: the allocation size
and the last block found. -/
def certificateSizes (marker : List UInt8) : Nat → Nat → Nat → Nat × Nat
  | 0, nextBlock, allocationSize => (nextBlock, allocationSize)
  | blockCount + 1, nextBlock, allocationSize =>
      let nextBlock := FindNextBlock memory marker endAddress nextBlock
      let allocationSize := (allocationSize + offsetof_Certificate) % 2 ^ 32
      certificateSizes marker blockCount nextBlock
        ((allocationSize + certificateSize memory nextBlock) % 2 ^ 32)

/-- `ConfigurationManager_FindX509CertificateConfigurationBlocks`, whose blocks
have sizes of their own. -/
def ConfigurationManager_FindX509CertificateConfigurationBlocks :
    BlockCollection :=
  let marker := certificateBlocks.marker
  let blockCount :=
    GetBlockCount memory certificateBlocks endAddress startAddress
  let (nextBlock, allocationSize) := certificateSizes memory endAddress marker
    blockCount startAddress offsetof_Configs
  { Count := blockCount % 2 ^ 8
    entries := findBlocks memory marker endAddress blockCount nextBlock
    allocated := allocationSize }

/-- The collection has the counted blocks: each once, in the order of their
addresses, each with its marker, and inside of the allocated memory. -/
structure Enumerates
    (kind : BlockKind)
    (collection : BlockCollection) : Prop where
  count : collection.Count = collection.entries.length
  entries : collection.entries =
    countedBlocks memory kind endAddress startAddress
  increasing : collection.entries.Pairwise (· < ·)
  marked : ∀ entry ∈ collection.entries, HasMarker memory kind.marker entry
  inside : ∀ index < collection.entries.length,
    offsetof_Configs + (index + 1) * sizeof_pointer ≤ collection.allocated

end Collections

/-! ## Scans -/

section Scans

variable
  {memory : Nat → UInt8}
  {kind : BlockKind}
  {endAddress cursor : Nat}

theorem getBlockCount_eq
    (blockCount : Nat) :
    getBlockCount memory kind endAddress cursor blockCount =
      blockCount +
        (countedBlocks memory kind endAddress cursor).length := by
  induction cursor, blockCount using
      getBlockCount.induct memory kind endAddress with
  | case1 cursor blockCount inside marked inductionHypothesis =>
      rw [getBlockCount, countedBlocks, if_pos inside, if_pos marked,
        if_pos inside, if_pos marked, inductionHypothesis, List.length_cons]
      omega
  | case2 cursor blockCount inside other inductionHypothesis =>
      rw [getBlockCount, countedBlocks, if_pos inside, if_neg other,
        if_pos inside, if_neg other, inductionHypothesis]
  | case3 cursor blockCount outside =>
      rw [getBlockCount, countedBlocks, if_neg outside, if_neg outside]
      rfl

theorem GetBlockCount_eq :
    GetBlockCount memory kind endAddress cursor =
      (countedBlocks memory kind endAddress cursor).length := by
  rw [GetBlockCount, getBlockCount_eq, Nat.zero_add]

/-- The first counted block is the one that the search finds, and the search
from there finds it again. -/
theorem findNextBlock_of_counted
    {block : Nat}
    {rest : List Nat}
    (counted : countedBlocks memory kind endAddress cursor =
      block :: rest) :
    FindNextBlock memory kind.marker endAddress cursor = block ∧
      FindNextBlock memory kind.marker endAddress block = block ∧
      HasMarker memory kind.marker block := by
  induction cursor using
      countedBlocks.induct memory kind endAddress with
  | case1 cursor inside marked _ =>
      rw [countedBlocks, if_pos inside, if_pos marked] at counted
      obtain ⟨rfl, -⟩ := List.cons.inj counted
      have found : FindNextBlock memory kind.marker endAddress cursor = cursor := by
        rw [FindNextBlock, if_pos inside, if_pos marked]
      exact ⟨found, found, marked⟩
  | case2 cursor inside other inductionHypothesis =>
      rw [countedBlocks, if_pos inside, if_neg other] at counted
      rw [FindNextBlock, if_pos inside, if_neg other]
      exact inductionHypothesis counted
  | case3 cursor outside =>
      rw [countedBlocks, if_neg outside] at counted
      cases counted

/-- A search that does not move on finds the same block over and over again. -/
theorem findBlocks_of_stays
    {block : Nat}
    (again : FindNextBlock memory kind.marker endAddress block = block)
    (blockCount : Nat) :
    findBlocks memory kind.marker endAddress blockCount block =
      List.replicate blockCount block := by
  induction blockCount with
  | zero => rfl
  | succ blockCount inductionHypothesis =>
      rw [findBlocks]
      simp only [again, inductionHypothesis, List.replicate_succ]

theorem findBlocks_of_counted
    {block : Nat}
    {rest : List Nat}
    (counted : countedBlocks memory kind endAddress cursor =
      block :: rest)
    (blockCount : Nat) :
    findBlocks memory kind.marker endAddress blockCount cursor =
      List.replicate blockCount block := by
  obtain ⟨first, again, -⟩ := findNextBlock_of_counted counted
  cases blockCount with
  | zero => rfl
  | succ blockCount =>
      rw [findBlocks]
      simp only [first, findBlocks_of_stays again, List.replicate_succ]

end Scans

/-! ## Collections -/

section Collections

variable
  {memory : Nat → UInt8}
  {kind : BlockKind}
  {startAddress endAddress : Nat}
  {collection : BlockCollection}

/-- A collection that repeats the first counted block has the counted blocks
exactly when there is at most one, and the one entry is inside. -/
theorem enumerates_iff_of_repeats
    (count : collection.Count =
      (countedBlocks memory kind endAddress startAddress).length % 2 ^ 8)
    (none_ : countedBlocks memory kind endAddress startAddress = [] →
      collection.entries = [])
    (repeats : ∀ block rest,
      countedBlocks memory kind endAddress startAddress = block :: rest →
        collection.entries = List.replicate (rest.length + 1) block) :
    Enumerates memory startAddress endAddress kind collection ↔
      (countedBlocks memory kind endAddress startAddress).length ≤ 1 ∧
        (countedBlocks memory kind endAddress startAddress ≠ [] →
          offsetof_Configs + sizeof_pointer ≤ collection.allocated) := by
  cases counted : countedBlocks memory kind endAddress startAddress with
  | nil =>
      have empty := none_ counted
      rw [counted] at count
      apply iff_of_true
      · refine ⟨?_, ?_, ?_, ?_, ?_⟩
        · rw [count, empty]
          rfl
        · rw [empty, counted]
        · rw [empty]
          exact List.Pairwise.nil
        · rw [empty]
          exact nofun
        · rw [empty]
          exact nofun
      · exact ⟨Nat.zero_le 1, fun some_ => absurd rfl some_⟩
  | cons block rest =>
      have entries := repeats block rest counted
      have marked := (findNextBlock_of_counted counted).2.2
      cases rest with
      | nil =>
          rw [counted] at count
          constructor
          · intro enumerates
            have inside := enumerates.inside 0
            rw [entries] at inside
            exact ⟨Nat.le_refl 1, fun _ => inside Nat.one_pos⟩
          · rintro ⟨-, inside⟩
            refine ⟨?_, ?_, ?_, ?_, ?_⟩
            · rw [count, entries]
              rfl
            · rw [entries, counted]
              rfl
            · rw [entries]
              exact List.pairwise_singleton _ _
            · rw [entries]
              rintro entry member
              rw [List.eq_of_mem_replicate member]
              exact marked
            · rw [entries]
              intro index less
              obtain rfl : index = 0 := Nat.lt_one_iff.mp less
              exact inside (List.cons_ne_nil block [])
      | cons second rest =>
          constructor
          · intro enumerates
            have increasing := enumerates.increasing
            rw [entries, List.length_cons, List.replicate_succ,
              List.replicate_succ] at increasing
            have less := List.rel_of_pairwise_cons increasing
              List.mem_cons_self
            exact absurd less (Nat.lt_irrefl block)
          · rintro ⟨atMost, -⟩
            rw [List.length_cons, List.length_cons] at atMost
            omega

theorem findConfigurationBlocks_iff :
    Enumerates memory startAddress endAddress kind
        (findConfigurationBlocks memory startAddress endAddress kind) ↔
      (countedBlocks memory kind endAddress startAddress).length ≤ 1 := by
  rw [enumerates_iff_of_repeats, and_iff_left_of_imp]
  · intro atMost some_
    have one : (countedBlocks memory kind endAddress startAddress).length = 1 :=
      Nat.le_antisymm atMost (List.length_pos_iff.mpr some_)
    rw [findConfigurationBlocks]
    simp only [GetBlockCount_eq, one]
    decide
  · rw [findConfigurationBlocks]
    simp only [GetBlockCount_eq]
  · intro counted
    rw [findConfigurationBlocks]
    simp only [GetBlockCount_eq, counted]
    rfl
  · intro block rest counted
    rw [findConfigurationBlocks]
    simp only [GetBlockCount_eq, counted]
    exact findBlocks_of_counted counted _

/-- The size pass stays at the first block. -/
theorem certificateSizes_of_counted
    {block : Nat}
    {rest : List Nat}
    (counted : countedBlocks memory kind endAddress startAddress =
      block :: rest)
    (blockCount allocationSize : Nat) :
    (certificateSizes memory endAddress kind.marker (blockCount + 1)
      startAddress allocationSize).1 = block := by
  obtain ⟨first, again, -⟩ := findNextBlock_of_counted counted
  have stays : ∀ blockCount allocationSize,
      (certificateSizes memory endAddress kind.marker blockCount block
        allocationSize).1 = block := by
    intro blockCount
    induction blockCount with
    | zero => exact fun _ => rfl
    | succ blockCount inductionHypothesis =>
        intro allocationSize
        rw [certificateSizes]
        simp only [again]
        exact inductionHypothesis _
  rw [certificateSizes]
  simp only [first]
  exact stays _ _

/-- The memory for a certificate is at least that of one entry. -/
def CertificateFits (memory : Nat → UInt8) (block : Nat) : Prop :=
  offsetof_Configs + sizeof_pointer ≤
    (offsetof_Configs + offsetof_Certificate +
      certificateSize memory block) % 2 ^ 32

theorem findX509_iff :
    Enumerates memory startAddress endAddress certificateBlocks
        (ConfigurationManager_FindX509CertificateConfigurationBlocks memory
          startAddress endAddress) ↔
      (countedBlocks memory certificateBlocks endAddress
          startAddress).length ≤ 1 ∧
        ∀ block ∈ countedBlocks memory certificateBlocks endAddress
          startAddress, CertificateFits memory block := by
  rw [enumerates_iff_of_repeats]
  · apply and_congr_right
    intro atMost
    rw [ConfigurationManager_FindX509CertificateConfigurationBlocks]
    cases counted : countedBlocks memory certificateBlocks endAddress
        startAddress with
    | nil => simp
    | cons block rest =>
        rw [counted, List.length_cons] at atMost
        obtain rfl : rest = [] := List.eq_nil_of_length_eq_zero (by omega)
        obtain ⟨first, -, -⟩ := findNextBlock_of_counted counted
        simp only [GetBlockCount_eq, counted, List.length_singleton,
          certificateSizes, first, ne_eq, List.cons_ne_nil, not_false_eq_true,
          forall_const, List.forall_mem_singleton, CertificateFits,
          Nat.mod_add_mod]
  · rw [ConfigurationManager_FindX509CertificateConfigurationBlocks]
    simp only [GetBlockCount_eq]
  · intro counted
    rw [ConfigurationManager_FindX509CertificateConfigurationBlocks]
    simp only [GetBlockCount_eq, counted]
    rfl
  · intro block rest counted
    rw [ConfigurationManager_FindX509CertificateConfigurationBlocks]
    simp only [GetBlockCount_eq, counted, List.length_cons]
    have stays := certificateSizes_of_counted counted rest.length
      offsetof_Configs
    have again := (findNextBlock_of_counted counted).2.1
    rw [stays]
    exact findBlocks_of_stays again _

/-- The three collections have the counted blocks exactly when the sector has
at most one block of each kind, and the memory for a certificate is enough. -/
theorem configurationBlocks_enumerated_iff
    (memory : Nat → UInt8)
    (startAddress endAddress : Nat) :
    (Enumerates memory startAddress endAddress networkBlocks
        (ConfigurationManager_FindNetworkConfigurationBlocks memory startAddress
          endAddress) ∧
      Enumerates memory startAddress endAddress wirelessBlocks
        (ConfigurationManager_FindNetworkWireless80211ConfigurationBlocks memory
          startAddress endAddress) ∧
      Enumerates memory startAddress endAddress certificateBlocks
        (ConfigurationManager_FindX509CertificateConfigurationBlocks memory
          startAddress endAddress)) ↔
      (∀ kind ∈ [networkBlocks, wirelessBlocks, certificateBlocks],
        (countedBlocks memory kind endAddress startAddress).length ≤ 1) ∧
      ∀ block ∈ countedBlocks memory certificateBlocks endAddress startAddress,
        CertificateFits memory block := by
  rw [ConfigurationManager_FindNetworkConfigurationBlocks,
    ConfigurationManager_FindNetworkWireless80211ConfigurationBlocks,
    findConfigurationBlocks_iff, findConfigurationBlocks_iff, findX509_iff]
  simp only [List.forall_mem_cons, List.not_mem_nil, IsEmpty.forall_iff,
    implies_true, and_true]
  tauto

/-- Of two network blocks behind each other, the first one is found twice. -/
theorem configurationBlocks_enumerated_twoBlocks :
    ¬∀ (memory : Nat → UInt8) (startAddress endAddress : Nat),
      Enumerates memory startAddress endAddress networkBlocks
        (ConfigurationManager_FindNetworkConfigurationBlocks memory startAddress
          endAddress) := by
  intro always
  let memory : Nat → UInt8 := fun address =>
    c_MARKER_CONFIGURATION_NETWORK_V1.getD (address % 117) 0
  have single := findConfigurationBlocks_iff.mp (always memory 0 234)
  have first : HasMarker memory networkBlocks.marker 0 := by decide
  have second : HasMarker memory networkBlocks.marker 117 := by decide
  have size : networkBlocks.blockSize = 117 := rfl
  rw [countedBlocks, if_pos (by decide), if_pos first, size, Nat.zero_add,
    countedBlocks, if_pos (by decide), if_pos second, List.length_cons,
    List.length_cons] at single
  omega

end Collections

end Hal

end NanoClr
