import Mathlib.Data.List.Perm.Subperm
import Mathlib.Data.List.Range
import NanoClr.EventCache.VirtualMethodTable
import NanoClr.Library.TransitionSystem

/-!
# The virtual method cache refines the search

What holds of the table after every lookup, and that a lookup finds what the
search of the type system finds.
-/

namespace NanoClr

namespace EventCache

open TypeSystem

/-! ## The links of the table -/

section Links

/-- The head of a hash chain. -/
def IsSlot (profile : MemoryProfile) (slot : Nat) : Prop :=
  profile.ENTRY_SIZE ≤ slot ∧ slot < profile.LinkArraySize

/-- The heads of all rings of entries: an entry that is on no hash chain is
linked to itself. -/
def IsHead (profile : MemoryProfile) (chains : Nat → List Nat) (head : Nat) :
    Prop :=
  IsSlot profile head ∨
    head < profile.ENTRY_SIZE ∧ ∀ slot, IsSlot profile slot → head ∉ chains slot

/-- The hash chains and the ring by last use. -/
structure LinkInvariant (profile : MemoryProfile) (table : VirtualMethodTable)
    (chains : Nat → List Nat) (order : List Nat) : Prop where
  rings : Rings table.m_entries.m_next table.m_entries.m_prev
    (IsHead profile chains) chains
  unused : ∀ idx, idx < profile.ENTRY_SIZE → chains idx = []
  entries : ∀ slot, IsSlot profile slot →
    ∀ idx ∈ chains slot, idx < profile.ENTRY_SIZE
  ordered : Rings table.m_entriesMRU.m_next table.m_entriesMRU.m_prev
    (· = profile.ENTRY_SIZE) (fun _ => order)
  all : ∀ idx, idx ∈ order ↔ idx < profile.ENTRY_SIZE

variable {profile : MemoryProfile} {table : VirtualMethodTable}
variable {chains : Nat → List Nat} {order : List Nat}

/-- An entry behind a head leaves the ring it is in. -/
theorem MoveEntryToTop_rings
    {entries : Links}
    {heads : Nat → Prop}
    {slot idx owner : Nat}
    (rings : Rings entries.m_next entries.m_prev heads chains)
    (isHead : heads slot)
    (different : slot ≠ idx)
    (isOwner : heads owner)
    (member : idx ∈ owner :: chains owner)
    (alone : idx = owner → chains owner = []) :
    Rings (MoveEntryToTop entries slot idx).m_next
      (MoveEntryToTop entries slot idx).m_prev
      (fun other => heads other ∧ other ≠ idx)
      (movedBehind chains slot idx) := by
  rw [MoveEntryToTop]
  split
  · exact rings.moveBehind isHead different isOwner member alone rfl rfl
  · next first =>
    exact rings.moveBehind_first isHead different (not_not.mp first)

/-- Every entry is the head of its ring or on a hash chain. -/
theorem LinkInvariant.owner
    {idx : Nat}
    (links : LinkInvariant profile table chains order)
    (isEntry : idx < profile.ENTRY_SIZE) :
    ∃ owner, IsHead profile chains owner ∧ idx ∈ owner :: chains owner ∧
      (idx = owner → chains owner = []) := by
  by_cases used : ∃ slot, IsSlot profile slot ∧ idx ∈ chains slot
  · obtain ⟨slot, isSlot, member⟩ := used
    have different : idx ≠ slot := fun same => by
      have := isSlot.1
      omega
    exact ⟨slot, .inl isSlot, List.mem_cons_of_mem slot member,
      fun same => absurd same different⟩
  · refine ⟨idx, .inr ⟨isEntry, ?_⟩, List.mem_cons_self, ?_⟩
    · exact fun slot isSlot member => used ⟨slot, isSlot, member⟩
    · exact fun _ => links.unused idx isEntry

/-- What is on a hash chain once an entry is moved to the top of one. -/
theorem LinkInvariant.mem_movedBehind
    {slot idx other inner : Nat}
    (links : LinkInvariant profile table chains order)
    (isSlot : IsSlot profile slot)
    (isOther : IsSlot profile other) :
    inner ∈ movedBehind chains slot idx other ↔
      (inner = idx ∧ other = slot) ∨ (inner ≠ idx ∧ inner ∈ chains other) := by
  have nodup := (links.rings.nodup other (.inl isOther)).of_cons
  rw [movedBehind]
  split
  · next same =>
    subst same
    rw [List.mem_cons, nodup.mem_erase_iff]
    tauto
  · next different =>
    rw [nodup.mem_erase_iff]
    tauto

/-- An entry that is moved to the top is no longer the head of a ring. -/
theorem LinkInvariant.isHead_movedBehind
    {slot idx head : Nat}
    (links : LinkInvariant profile table chains order)
    (isSlot : IsSlot profile slot)
    (isEntry : idx < profile.ENTRY_SIZE)
    (isHead : IsHead profile (movedBehind chains slot idx) head) :
    IsHead profile chains head ∧ head ≠ idx := by
  rcases isHead with isHead | ⟨inTable, onNone⟩
  · have := isHead.1
    exact ⟨.inl isHead, by omega⟩
  · have different : head ≠ idx := fun same =>
      onNone slot isSlot
        ((links.mem_movedBehind isSlot isSlot).mpr (.inl ⟨same, rfl⟩))
    refine ⟨.inr ⟨inTable, fun other isOther member => ?_⟩, different⟩
    exact onNone other isOther
      ((links.mem_movedBehind isSlot isOther).mpr (.inr ⟨different, member⟩))

/-- The links once an entry is moved to the top. -/
theorem LinkInvariant.moveToTop
    {slot idx : Nat}
    (links : LinkInvariant profile table chains order)
    (isSlot : IsSlot profile slot)
    (isEntry : idx < profile.ENTRY_SIZE) :
    LinkInvariant profile (table.moveToTop profile slot idx)
      (movedBehind chains slot idx) (idx :: order.erase idx) := by
  have apart : ∀ other, IsSlot profile other → other ≠ idx :=
    fun other isOther => by
      have := isOther.1
      omega
  obtain ⟨owner, isOwner, member, alone⟩ := links.owner isEntry
  refine ⟨?_, ?_, ?_, ?_, ?_⟩
  · have moved := MoveEntryToTop_rings links.rings (.inl isSlot)
      (apart slot isSlot) isOwner member alone
    exact moved.congr
      (fun head isHead => links.isHead_movedBehind isSlot isEntry isHead)
      fun head _ => rfl
  · intro other isOther
    have different : other ≠ slot := fun same => by
      have := isSlot.1
      omega
    rw [movedBehind, if_neg different, links.unused other isOther]
    rfl
  · intro other isOther inner inChain
    rcases (links.mem_movedBehind isSlot isOther).mp inChain with
      ⟨rfl, _⟩ | ⟨_, before⟩
    · exact isEntry
    · exact links.entries other isOther inner before
  · have moved := MoveEntryToTop_rings links.ordered rfl (by omega) rfl
      (List.mem_cons_of_mem _ ((links.all idx).mpr isEntry)) (by omega)
    apply moved.congr
    · rintro head rfl
      exact ⟨rfl, by omega⟩
    · rintro head rfl
      exact (if_pos rfl).symm
  · have nodup := (links.ordered.nodup _ rfl).of_cons
    intro other
    rw [List.mem_cons, nodup.mem_erase_iff, links.all]
    by_cases same : other = idx
    · simp [same, isEntry]
    · simp [same]

/-- The links that `Initialize` sets. -/
theorem initializeLinks_links (profile : MemoryProfile)
    (table : VirtualMethodTable) :
    LinkInvariant profile (table.initializeLinks profile) (fun _ => [])
      (List.range profile.ENTRY_SIZE) := by
  have inTable : ∀ head, IsHead profile (fun _ => []) head →
      head < profile.LinkArraySize := by
    rintro head (⟨_, below⟩ | ⟨below, _⟩)
    · exact below
    · exact Nat.lt_add_right _ below
  refine ⟨⟨?_, ?_, ?_⟩, ?_, ?_, ⟨?_, ?_, ?_⟩, ?_⟩
  · intro head isHead
    apply IsRing.nil_iff.mpr
    exact ⟨if_pos (inTable head isHead), if_pos (inTable head isHead)⟩
  · intro head _
    exact List.nodup_singleton head
  · intro head other node _ _ isHead isOther
    rw [List.mem_singleton] at isHead isOther
    exact isHead.symm.trans isOther
  · exact fun _ _ => rfl
  · exact fun _ _ _ member => absurd member List.not_mem_nil
  · rintro head rfl
    rw [IsRing, List.cons_append, ← List.range_succ]
    apply (List.isChain_cons_range_succ _ _ _).mpr
    have positive := profile.hasEntries
    refine ⟨⟨?_, ?_⟩, fun idx below => ⟨?_, ?_⟩⟩ <;>
      simp only [VirtualMethodTable.initializeLinks,
        MemoryProfile.LinkMRUArraySize, Nat.succ_eq_add_one] <;> grind
  · rintro head rfl
    rw [List.nodup_cons, List.mem_range]
    exact ⟨Nat.lt_irrefl _, List.nodup_range⟩
  · rintro head other node rfl rfl _ _
    rfl
  · exact fun _ => List.mem_range

end Links

/-! ## The payloads of the table -/

/-- An entry of a hash chain holds what the search finds for its key. -/
def Answers (profile : MemoryProfile) (typeSystem : CLR_RT_TypeSystem)
    (slot : Nat) (payload : Payload) : Prop :=
  idxHead profile payload.m_key = slot ∧
    findVirtualMethodDef typeSystem payload.m_key.m_cls
      payload.m_key.m_mdVirtual = some (some payload.m_md)

/-- The table between lookups. -/
structure TableInvariant (profile : MemoryProfile)
    (typeSystem : CLR_RT_TypeSystem) (table : VirtualMethodTable)
    (chains : Nat → List Nat) (order : List Nat) : Prop where
  links : LinkInvariant profile table chains order
  answers : ∀ slot, IsSlot profile slot → ∀ idx ∈ chains slot,
    Answers profile typeSystem slot (table.m_payloads idx)

section Payloads

variable {profile : MemoryProfile} {typeSystem : CLR_RT_TypeSystem}
variable {table : VirtualMethodTable} {key : Key}
variable {chains : Nat → List Nat} {order : List Nat}

theorem idxHead_isSlot (profile : MemoryProfile) (key : Key) :
    IsSlot profile (idxHead profile key) := by
  have positive := profile.hasChains
  have below := Nat.mod_lt (SUPPORT_ComputeCRC key.bytes 0 8 0) positive
  simp only [IsSlot, idxHead, MemoryProfile.LinkArraySize,
    MemoryProfile.PayloadArraySize, Nat.add_sub_cancel_left]
  omega

/-- The entry that is used next is an entry. -/
theorem getNewEntry_lt (links : LinkInvariant profile table chains order) :
    getNewEntry profile table < profile.ENTRY_SIZE := by
  apply (links.all _).mp
  apply (links.ordered.ring _ rfl).prev_head_mem
  exact List.ne_nil_of_mem ((links.all 0).mpr profile.hasEntries)

/-- The search along a hash chain tests its entries in order. -/
theorem searchKey_eq (links : LinkInvariant profile table chains order) :
    searchKey profile table key =
      some ((chains (idxHead profile key)).find? fun idx =>
        (table.m_payloads idx).m_key = key) := by
  have isSlot := idxHead_isSlot profile key
  have nodup := links.rings.nodup _ (.inl isSlot)
  apply loop_searchRing
  · exact (links.rings.ring _ (.inl isSlot)).imp fun _ _ pair => pair.1
  · exact (List.nodup_cons.mp nodup).1
  · have inside : chains (idxHead profile key) ⊆
        List.range profile.ENTRY_SIZE := fun idx member =>
      List.mem_range.mpr (links.entries _ isSlot idx member)
    have shorter := (List.subperm_of_subset nodup.of_cons inside).length_le
    rw [List.length_range] at shorter
    exact Nat.lt_succ_of_le shorter

/-- The table once an entry that answers for a key is moved to the top. -/
theorem TableInvariant.moveToTop
    {slot idx : Nat}
    {later : VirtualMethodTable}
    {payload : Payload}
    (invariant : TableInvariant profile typeSystem table chains order)
    (isSlot : IsSlot profile slot)
    (isEntry : idx < profile.ENTRY_SIZE)
    (sameEntries : later.m_entries = table.m_entries)
    (sameMRU : later.m_entriesMRU = table.m_entriesMRU)
    (same : ∀ other, other ≠ idx →
      later.m_payloads other = table.m_payloads other)
    (isPayload : later.m_payloads idx = payload)
    (answers : Answers profile typeSystem slot payload) :
    TableInvariant profile typeSystem (later.moveToTop profile slot idx)
      (movedBehind chains slot idx) (idx :: order.erase idx) := by
  have links : LinkInvariant profile later chains order := by
    obtain ⟨rings, unused, entries, ordered, all⟩ := invariant.links
    rw [← sameEntries] at rings
    rw [← sameMRU] at ordered
    exact ⟨rings, unused, entries, ordered, all⟩
  refine ⟨links.moveToTop isSlot isEntry, ?_⟩
  intro other isOther inner member
  rcases (links.mem_movedBehind isSlot isOther).mp member with
    ⟨rfl, rfl⟩ | ⟨different, before⟩
  · exact isPayload ▸ answers
  · have kept := invariant.answers other isOther inner before
    rw [← same inner different] at kept
    exact kept

end Payloads

/-! ## Lookups -/

section Lookups

variable {profile : MemoryProfile} {typeSystem : CLR_RT_TypeSystem}

/-- What a lookup finds: a class that declares the method has it, and for the
others the type system is searched. -/
def cachedMethod (typeSystem : CLR_RT_TypeSystem) (cls : CLR_RT_TypeDef_Index)
    (mdVirtual : CLR_RT_MethodDef_Index) :
    Option (Option CLR_RT_MethodDef_Index) := do
  if ← declares typeSystem cls mdVirtual then
    some (some mdVirtual)
  else
    findVirtualMethodDef typeSystem cls mdVirtual

variable {table later : VirtualMethodTable}
variable {chains : Nat → List Nat} {order : List Nat}
variable {cls : CLR_RT_TypeDef_Index} {mdVirtual : CLR_RT_MethodDef_Index}
variable {result : Option CLR_RT_MethodDef_Index}

/-- A lookup of a key that an entry of its hash chain holds. -/
theorem lookup_hit
    {idx : Nat}
    (invariant : TableInvariant profile typeSystem table chains order)
    (hit : (chains (idxHead profile ⟨mdVirtual, cls⟩)).find?
      (fun idx => (table.m_payloads idx).m_key = ⟨mdVirtual, cls⟩) = some idx) :
    findVirtualMethodDef typeSystem cls mdVirtual =
        some (some (table.m_payloads idx).m_md) ∧
      ∃ chains order, TableInvariant profile typeSystem
        (table.moveToTop profile (idxHead profile ⟨mdVirtual, cls⟩) idx)
        chains order := by
  have isSlot := idxHead_isSlot profile ⟨mdVirtual, cls⟩
  have member := List.mem_of_find?_eq_some hit
  have sameKey : (table.m_payloads idx).m_key = ⟨mdVirtual, cls⟩ := by
    simpa using List.find?_some hit
  have answers := invariant.answers _ isSlot idx member
  have isEntry := invariant.links.entries _ isSlot idx member
  constructor
  · have found := answers.2
    rwa [sameKey] at found
  · exact ⟨_, _, invariant.moveToTop isSlot isEntry rfl rfl (fun _ _ => rfl)
      rfl answers⟩

/-- A lookup of a key that the search finds a method for takes the entry whose
last use is longest ago. -/
theorem lookup_miss
    {md : CLR_RT_MethodDef_Index}
    (invariant : TableInvariant profile typeSystem table chains order)
    (finds : findVirtualMethodDef typeSystem cls mdVirtual = some (some md)) :
    ∃ chains order, TableInvariant profile typeSystem
      (VirtualMethodTable.moveToTop profile
        { table with
          m_payloads := Function.update table.m_payloads
            (getNewEntry profile table) ⟨⟨mdVirtual, cls⟩, md⟩ }
        (idxHead profile ⟨mdVirtual, cls⟩) (getNewEntry profile table))
      chains order := by
  exact ⟨_, _, invariant.moveToTop (idxHead_isSlot profile _)
    (getNewEntry_lt invariant.links) rfl rfl
    (fun other different => Function.update_of_ne different _ _)
    (Function.update_self _ _ _) ⟨rfl, finds⟩⟩

/-- A lookup finds the cached method and keeps the table in order. -/
theorem findVirtualMethod_spec
    (invariant : TableInvariant profile typeSystem table chains order) :
    (findVirtualMethod profile typeSystem cls mdVirtual table).map Prod.fst =
        cachedMethod typeSystem cls mdVirtual ∧
      ∀ found, findVirtualMethod profile typeSystem cls mdVirtual table =
          some found →
        ∃ chains order,
          TableInvariant profile typeSystem found.2 chains order := by
  have unchanged : ∃ chains order,
      TableInvariant profile typeSystem table chains order :=
    ⟨_, _, invariant⟩
  simp only [cachedMethod, findVirtualMethod, searchKey_eq invariant.links]
  rcases declares typeSystem cls mdVirtual with _ | _ | _
  · simp
  · cases search : (chains (idxHead profile ⟨mdVirtual, cls⟩)).find?
        (fun idx => (table.m_payloads idx).m_key = ⟨mdVirtual, cls⟩) with
    | some idx =>
        obtain ⟨finds, kept⟩ := lookup_hit invariant search
        simp [finds, kept]
    | none =>
        rcases finds : findVirtualMethodDef typeSystem cls mdVirtual with
          _ | _ | md
        · simp
        · simp [unchanged]
        · have kept := lookup_miss invariant finds
          simp [kept]
  · simp [unchanged]

/-- Where a class declares a method, is no interface and has the method as the
first of its kind, the type system finds the method as well.  Interfaces are
left out: the search of the type system passes over their methods. -/
def FindsDeclared (typeSystem : CLR_RT_TypeSystem)
    (cls : CLR_RT_TypeDef_Index) (mdVirtual : CLR_RT_MethodDef_Index) : Prop :=
  ∃ clsInst calleeInst calleeName,
    CLR_RT_TypeDef_Instance.initializeFromIndex typeSystem cls =
        some (some clsInst) ∧
      CLR_RT_MethodDef_Instance.initializeFromIndex typeSystem mdVirtual =
        some (some calleeInst) ∧
      calleeInst.m_assm.getString calleeInst.m_target.name =
        some calleeName ∧
      clsInst.m_target.flags &&& TD_Semantics_Mask ≠ TD_Semantics_Interface ∧
      ListedFirst typeSystem clsInst calleeInst calleeName

/-- A method that a class declares, and has as the first of its kind, is what
the type system finds. -/
theorem cachedMethod_declared
    (declared : declares typeSystem cls mdVirtual = some true)
    (finds : FindsDeclared typeSystem cls mdVirtual) :
    cachedMethod typeSystem cls mdVirtual =
      findVirtualMethodDef typeSystem cls mdVirtual := by
  obtain ⟨clsInst, calleeInst, calleeName, isClass, isMethod, isName, noInterface,
    first⟩ := finds
  obtain ⟨rfl, clsAssembly, clsTarget⟩ :=
    CLR_RT_TypeDef_Instance.of_initializeFromIndex isClass
  obtain ⟨rfl, calleeAssembly, calleeTarget⟩ :=
    CLR_RT_MethodDef_Instance.of_initializeFromIndex isMethod
  have result : cachedMethod typeSystem clsInst.index calleeInst.index =
      some (some calleeInst.index) := by
    simp [cachedMethod, declared]
  have sameAssembly : clsInst.index.Assembly = calleeInst.index.Assembly := by
    by_contra different
    simp [declares, different] at declared
  rw [sameAssembly, calleeAssembly, Option.some.injEq] at clsAssembly
  have isOwner : ∃ owner, calleeInst.m_assm.owner calleeInst.index.Method =
      some owner ∧ clsInst.index.Type = owner.toNat := by
    simpa [declares, sameAssembly, calleeAssembly,
      Option.bind_eq_some_iff] using declared
  obtain ⟨owner, isOwner, sameType⟩ := isOwner
  rw [← clsAssembly, sameType] at clsTarget
  rw [result, findVirtualMethodDef, isMethod]
  have identity := findVirtualMethodDefNamed_identity isClass sameAssembly
    ⟨_, clsAssembly ▸ calleeTarget⟩ first
  simp [isName, CLR_RT_TypeDef_Instance.initializeFromMethod, isOwner,
    clsTarget, noInterface, identity]

end Lookups

/-! ## Runs of lookups -/

/-- A lookup and the method that it finds, if any. -/
structure Lookup where
  cls : CLR_RT_TypeDef_Index
  mdVirtual : CLR_RT_MethodDef_Index
  md : Option CLR_RT_MethodDef_Index

/-- A lookup that returns. -/
def LookupStep (profile : MemoryProfile) (typeSystem : CLR_RT_TypeSystem)
    (table : VirtualMethodTable) (lookup : Lookup)
    (later : VirtualMethodTable) : Prop :=
  findVirtualMethod profile typeSystem lookup.cls lookup.mdVirtual table =
    some (lookup.md, later)

/-- The table that `Initialize` leaves. -/
def TableStart (profile : MemoryProfile) (table : VirtualMethodTable) : Prop :=
  ∃ before : VirtualMethodTable, table = before.initializeLinks profile

/-- Every entry is on the one hash chain of its key or linked to itself, and
the ring by last use has every entry once. -/
structure WellLinked (profile : MemoryProfile) (table : VirtualMethodTable)
    (chains : Nat → List Nat) (order : List Nat) : Prop where
  chain : ∀ slot, IsSlot profile slot →
    IsRing table.m_entries.m_next table.m_entries.m_prev slot (chains slot) ∧
      (slot :: chains slot).Nodup
  placed : ∀ slot, IsSlot profile slot → ∀ idx ∈ chains slot,
    idx < profile.ENTRY_SIZE ∧
      idxHead profile (table.m_payloads idx).m_key = slot
  unused : ∀ idx < profile.ENTRY_SIZE,
    (∀ slot, IsSlot profile slot → idx ∉ chains slot) →
      IsRing table.m_entries.m_next table.m_entries.m_prev idx []
  ring : IsRing table.m_entriesMRU.m_next table.m_entriesMRU.m_prev
    (profile.LinkMRUArraySize - 1) order
  once : order.Nodup ∧ ∀ idx, idx ∈ order ↔ idx < profile.ENTRY_SIZE

section Runs

variable {profile : MemoryProfile} {typeSystem : CLR_RT_TypeSystem}
variable {table : VirtualMethodTable}

theorem TableInvariant.wellLinked
    {chains : Nat → List Nat}
    {order : List Nat}
    (invariant : TableInvariant profile typeSystem table chains order) :
    WellLinked profile table chains order := by
  have links := invariant.links
  refine ⟨?_, ?_, ?_, links.ordered.ring _ rfl, ?_, links.all⟩
  · exact fun slot isSlot =>
      ⟨links.rings.ring slot (.inl isSlot), links.rings.nodup slot (.inl isSlot)⟩
  · exact fun slot isSlot idx member =>
      ⟨links.entries slot isSlot idx member,
        (invariant.answers slot isSlot idx member).1⟩
  · intro idx isEntry onNone
    have ring := links.rings.ring idx (.inr ⟨isEntry, onNone⟩)
    rwa [links.unused idx isEntry] at ring
  · exact (links.ordered.nodup _ rfl).of_cons

/-- In every run of lookups the table is well linked, and a lookup finds the
method itself where the class declares it and what the type system finds
elsewhere. -/
theorem findVirtualMethod_refines
    {taken : List (VirtualMethodTable × Lookup)}
    (run : Run (TableStart profile) (LookupStep profile typeSystem) taken
      table) :
    (∃ chains order, WellLinked profile table chains order) ∧
      ∀ cls mdVirtual,
        (findVirtualMethod profile typeSystem cls mdVirtual table).map
            Prod.fst = cachedMethod typeSystem cls mdVirtual ∧
          (declares typeSystem cls mdVirtual = some true →
            FindsDeclared typeSystem cls mdVirtual →
            cachedMethod typeSystem cls mdVirtual =
              findVirtualMethodDef typeSystem cls mdVirtual) := by
  have invariant : ∃ chains order,
      TableInvariant profile typeSystem table chains order := by
    apply run.invariant_of
      (fun table => ∃ chains order,
        TableInvariant profile typeSystem table chains order)
      (fun _ _ => True)
    · rintro table ⟨before, rfl⟩
      exact ⟨_, _, initializeLinks_links profile before,
        fun _ _ _ member => absurd member List.not_mem_nil⟩
    · rintro table lookup later ⟨chains, order, holds⟩ _ step
      exact (findVirtualMethod_spec holds).2 _ step
    · exact fun _ _ => trivial
  obtain ⟨chains, order, invariant⟩ := invariant
  exact ⟨⟨chains, order, invariant.wellLinked⟩, fun cls mdVirtual =>
    ⟨(findVirtualMethod_spec invariant).1, cachedMethod_declared⟩⟩

end Runs

/-! ## A class, a subclass and a static method -/

/-- A class with a virtual method `M` and a static method `S`, and a subclass
that overrides `M`. -/
def overrideAssembly : CLR_RT_Assembly where
  m_idx := 1
  typeDefs := [
    {
      name := 2, nameSpace := CLR_EmptyIndex, extends_ := 0xFFFF
      enclosingType := CLR_EmptyIndex, methods_First := 0, vMethods_Num := 1
      iMethods_Num := 0, flags := 0
    },
    {
      name := 3, nameSpace := CLR_EmptyIndex, extends_ := 0
      enclosingType := CLR_EmptyIndex, methods_First := 2, vMethods_Num := 1
      iMethods_Num := 0, flags := 0
    }
  ]
  methodDefs := [
    { name := 0, flags := 0x00000146, numArgs := 1, sig := 0 },
    { name := 1, flags := 0x00000016, numArgs := 0, sig := 0 },
    { name := 0, flags := 0x00000046, numArgs := 1, sig := 0 }
  ]
  typeSpecs := []
  signatures := [0, 0, DATATYPE_VOID]
  m_pCrossReference_TypeRef := []
  m_pCrossReference_MethodDef := [0, 0, 1]
  getString := fun index => [[0x4D], [0x53], [0x42], [0x44]][index]?

/-- The type system with this assembly only. -/
def overrideSystem : CLR_RT_TypeSystem where
  m_assemblies := [some overrideAssembly]
  g_CLR_RT_WellKnownTypes := default

/-- The smallest profile. -/
def extraSmall : MemoryProfile where
  ENTRY_SIZE := 32
  HASH_TABLE_ENTRY := 9
  hasEntries := by decide
  hasChains := by decide
  entriesLinked := by decide
  chainsLinked := by decide

/-- A table of zeros that is initialized. -/
def emptyTable : VirtualMethodTable :=
  let links : Links := { m_next := fun _ => 0, m_prev := fun _ => 0 }
  VirtualMethodTable.initializeLinks extraSmall {
    m_entries := links
    m_entriesMRU := links
    m_payloads := fun _ => { m_key := ⟨⟨0⟩, ⟨0⟩⟩, m_md := ⟨0⟩ }
  }

/-- The subclass finds its override, and once more from the table. -/
theorem findVirtualMethod_refines_override :
    ∃ later,
      LookupStep extraSmall overrideSystem emptyTable
          ⟨⟨0x10001⟩, ⟨0x10000⟩, some ⟨0x10002⟩⟩ later ∧
        (findVirtualMethod extraSmall overrideSystem ⟨0x10001⟩ ⟨0x10000⟩
            later).map Prod.fst = some (some ⟨0x10002⟩) := by
  have finds : (findVirtualMethod extraSmall overrideSystem ⟨0x10001⟩
      ⟨0x10000⟩ emptyTable).map Prod.fst = some (some ⟨0x10002⟩) := by
    decide +kernel
  obtain ⟨⟨md, later⟩, returns, rfl⟩ := Option.map_eq_some_iff.mp finds
  have step : LookupStep extraSmall overrideSystem emptyTable
      ⟨⟨0x10001⟩, ⟨0x10000⟩, some ⟨0x10002⟩⟩ later := returns
  have starts : TableStart extraSmall emptyTable := ⟨_, rfl⟩
  have run := (Run.start starts).next step
  have again := ((findVirtualMethod_refines run).2 ⟨0x10001⟩ ⟨0x10000⟩).1
  exact ⟨later, step, again.trans (by decide +kernel)⟩

/-- The class has its static method by the table; the search finds none. -/
theorem findVirtualMethod_staticMethod :
    ¬ ∀ (profile : MemoryProfile) (typeSystem : CLR_RT_TypeSystem)
      (taken : List (VirtualMethodTable × Lookup))
      (table : VirtualMethodTable),
      Run (TableStart profile) (LookupStep profile typeSystem) taken table →
        ∀ cls mdVirtual,
          (findVirtualMethod profile typeSystem cls mdVirtual table).map
              Prod.fst =
            findVirtualMethodDef typeSystem cls mdVirtual := by
  intro same
  have starts : TableStart extraSmall emptyTable := ⟨_, rfl⟩
  have differs : (findVirtualMethod extraSmall overrideSystem ⟨0x10000⟩
      ⟨0x10001⟩ emptyTable).map Prod.fst ≠
        findVirtualMethodDef overrideSystem ⟨0x10000⟩ ⟨0x10001⟩ := by
    decide +kernel
  exact differs (same extraSmall overrideSystem [] emptyTable (.start starts)
    ⟨0x10000⟩ ⟨0x10001⟩)

end EventCache

end NanoClr
