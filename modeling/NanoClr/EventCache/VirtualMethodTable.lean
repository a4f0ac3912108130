import NanoClr.Library.Rings
import NanoClr.Support.ComputeCRC
import NanoClr.TypeSystem.FindVirtualMethodDef

/-!
# The virtual method table

The table of the event cache that remembers which method implements a virtual
method in a class.  Its entries are on hash chains and on a ring that orders
them by their last use.
-/

namespace NanoClr

namespace EventCache

open TypeSystem

/-- The sizes of a memory profile; links have sixteen bits. -/
structure MemoryProfile where
  ENTRY_SIZE : Nat
  HASH_TABLE_ENTRY : Nat
  hasEntries : 0 < ENTRY_SIZE
  hasChains : 0 < HASH_TABLE_ENTRY
  entriesLinked : ENTRY_SIZE + 1 < 0xFFFF
  chainsLinked : ENTRY_SIZE + HASH_TABLE_ENTRY ≤ 0x10000

namespace MemoryProfile

variable (profile : MemoryProfile)

/-- The entries, and the heads of the chains behind them. -/
def LinkArraySize : Nat := profile.ENTRY_SIZE + profile.HASH_TABLE_ENTRY

/-- The entries, and the head of their order of use behind them. -/
def LinkMRUArraySize : Nat := profile.ENTRY_SIZE + 1

/-- The entries that hold a method. -/
def PayloadArraySize : Nat := profile.ENTRY_SIZE

end MemoryProfile

/-- The links of an array, by index. -/
structure Links where
  m_next : Nat → Nat
  m_prev : Nat → Nat

/-- One link forward is changed. -/
def Links.setNext (entries : Links) (idx next : Nat) : Links :=
  { entries with m_next := Function.update entries.m_next idx next }

/-- One link backward is changed. -/
def Links.setPrev (entries : Links) (idx prev : Nat) : Links :=
  { entries with m_prev := Function.update entries.m_prev idx prev }

/-- What a method is looked up by: the virtual method and the class. -/
structure Key where
  m_mdVirtual : CLR_RT_MethodDef_Index
  m_cls : CLR_RT_TypeDef_Index
deriving DecidableEq

/-- A key in memory, words with their low byte first. -/
def Key.bytes (key : Key) : Bytes := fun address =>
  let word := if address < 4 then key.m_mdVirtual.m_data else key.m_cls.m_data
  (word >>> .ofNat (8 * (address % 4))).toUInt8

/-- The entry for a key: the method that was found. -/
structure Payload where
  m_key : Key
  m_md : CLR_RT_MethodDef_Index

/-- The chains by hash value, the order of use, and the entries. -/
structure VirtualMethodTable where
  m_entries : Links
  m_entriesMRU : Links
  m_payloads : Nat → Payload

/-! ## Initialize -/

/-- `Initialize`: the entries are linked to themselves, and all entries are in
the list by last use. -/
def VirtualMethodTable.initializeLinks (profile : MemoryProfile)
    (table : VirtualMethodTable) : VirtualMethodTable :=
  let last := profile.LinkMRUArraySize - 1
  {
    m_entries := {
      m_next := fun idx =>
        if idx < profile.LinkArraySize then idx
        else table.m_entries.m_next idx
      m_prev := fun idx =>
        if idx < profile.LinkArraySize then idx
        else table.m_entries.m_prev idx
    }
    m_entriesMRU := {
      m_next := fun idx =>
        if idx < profile.LinkMRUArraySize then
          if idx = last then 0 else idx + 1
        else table.m_entriesMRU.m_next idx
      m_prev := fun idx =>
        if idx < profile.LinkMRUArraySize then
          if idx = 0 then last else idx - 1
        else table.m_entriesMRU.m_prev idx
    }
    m_payloads := table.m_payloads
  }

/-! ## FindVirtualMethod -/

/-- `MoveEntryToTop`: an entry becomes the first behind a head. -/
def MoveEntryToTop (entries : Links) (slot idx : Nat) : Links :=
  if entries.m_next slot ≠ idx then
    let next := entries.m_next idx
    let prev := entries.m_prev idx
    -- Unlink.
    let entries := entries.setPrev next prev
    let entries := entries.setNext prev next
    -- Insert.
    let next := entries.m_next slot
    let entries := entries.setNext idx next
    let entries := entries.setPrev idx slot
    let entries := entries.setNext slot idx
    entries.setPrev next idx
  else
    entries

/-- Whether a class declares a method, by the cross reference of the
method. -/
def declares (typeSystem : CLR_RT_TypeSystem) (cls : CLR_RT_TypeDef_Index)
    (mdVirtual : CLR_RT_MethodDef_Index) : Option Bool :=
  if cls.Assembly = mdVirtual.Assembly then do
    let assm ← typeSystem.assembly mdVirtual.Assembly
    let owner ← assm.owner mdVirtual.Method
    some (cls.Type = owner.toNat)
  else
    some false

section FindVirtualMethod

variable (profile : MemoryProfile) (typeSystem : CLR_RT_TypeSystem)

/-- The head of the hash chain of a key. -/
def idxHead (key : Key) : Nat :=
  SUPPORT_ComputeCRC key.bytes 0 8 0 %
      (profile.LinkArraySize - profile.PayloadArraySize) +
    profile.PayloadArraySize

/-- `GetNewEntry`: the entry whose last use is longest ago. -/
def getNewEntry (table : VirtualMethodTable) : Nat :=
  table.m_entriesMRU.m_prev (profile.LinkMRUArraySize - 1)

/-- The loop along the hash chain of a key. -/
def searchKey (table : VirtualMethodTable) (key : Key) :
    Option (Option Nat) :=
  loop
    (searchRing table.m_entries.m_next (idxHead profile key)
      fun idx => (table.m_payloads idx).m_key = key)
    (profile.PayloadArraySize + 1)
    (table.m_entries.m_next (idxHead profile key))

/-- An entry becomes the first of a hash chain and the last used. -/
def VirtualMethodTable.moveToTop (table : VirtualMethodTable)
    (slot idx : Nat) : VirtualMethodTable :=
  { table with
    m_entries := MoveEntryToTop table.m_entries slot idx
    m_entriesMRU :=
      MoveEntryToTop table.m_entriesMRU (profile.LinkMRUArraySize - 1) idx }

/-- `FindVirtualMethod`: the method that is found, if any, and the table
behind the lookup. -/
def findVirtualMethod (cls : CLR_RT_TypeDef_Index)
    (mdVirtual : CLR_RT_MethodDef_Index) (table : VirtualMethodTable) :
    Option (Option CLR_RT_MethodDef_Index × VirtualMethodTable) := do
  if ← declares typeSystem cls mdVirtual then
    some (some mdVirtual, table)
  else
    let key : Key := { m_mdVirtual := mdVirtual, m_cls := cls }
    let slot := idxHead profile key
    match ← searchKey profile table key with
    | some idx =>
        some (some (table.m_payloads idx).m_md,
          table.moveToTop profile slot idx)
    | none =>
        match ← findVirtualMethodDef typeSystem cls mdVirtual with
        | none => some (none, table)
        | some md =>
            let idx := getNewEntry profile table
            let payload : Payload := { m_key := key, m_md := md }
            let table : VirtualMethodTable := { table with
              m_payloads := Function.update table.m_payloads idx payload }
            some (some md, table.moveToTop profile slot idx)

end FindVirtualMethod

end EventCache

end NanoClr
