import NanoClr.HeapBlocks.ObjectsEqual

/-!
# Hash codes of heap blocks

`GetHashCode` runs a checksum over a heap block and what it refers to.  Equal
blocks have one hash code unless the checksum takes bytes that the comparison
leaves out.
-/

namespace NanoClr

namespace HeapBlocks

/-- The length of a text up to its zero. -/
def hal_strlen_s (memory : Bytes) : Nat → Nat → Option Nat
  | 0, _ => none
  | fuel + 1, str =>
      if memory str = 0 then some 0
      else (hal_strlen_s memory fuel (str + 1)).map (· + 1)

/-- The bytes of a pointer that is itself stored somewhere. -/
def pointerBytes (ptr : Nat) : Bytes := fun address =>
  UInt8.ofNat (ptr / 256 ^ address)

/-- `GetAtomicDataUsedBytes`. -/
def GetAtomicDataUsedBytes : DataType → Nat
  | .boolean | .u1 | .char => 1
  | .i2 | .u2 => 2
  | .i4 | .u4 | .r4 => 4
  | _ => 8

/-- The loop over the fields of an object. -/
def hashFields (hash : Nat → Nat → Option Nat) :
    Nat → Nat → Nat → Option Nat
  | 0, _, crc => some crc
  | totFields + 1, ptr, crc => do
      let crc ← hash (nextBlock ptr) crc
      hashFields hash totFields (nextBlock ptr) crc

/-- `GetHashCode`, with a bound on its depth. -/
def GetHashCode (heap : BlockMemory) : Nat → Nat → Bool → Nat → Option Nat
  | 0, _, _, _ => none
  | fuel + 1, ptr, fRecurse, crc =>
      if ptr = 0 then some 0
      else match dataTypeAt heap.bytes ptr with
        | none => none
        | some .object =>
            GetHashCode heap fuel (dereference heap.bytes ptr) fRecurse crc
        | some .string => do
            let szText := readUInt32 heap.bytes (dataOf ptr)
            let length ← hal_strlen_s heap.bytes fuel szText
            some (SUPPORT_ComputeCRC heap.bytes szText length crc)
        | some .classType | some .valueType =>
            if fRecurse then
              let totFields := heap.m_totalFields (objectCls heap.bytes ptr)
              if 0 < totFields then
                hashFields
                  (fun ptr crc => GetHashCode heap fuel ptr false crc)
                  totFields ptr crc
              else some (SUPPORT_ComputeCRC (pointerBytes ptr) 0 4 crc)
            else some crc
        | some .delegateHead => do
            let crc ← GetHashCode heap fuel (ptr + 20) false crc
            some (SUPPORT_ComputeCRC heap.bytes (ptr + 16) 4 crc)
        | some .objectToEvent => do
            let m_eventPtr := readUInt32 heap.bytes (ptr + 12)
            let m_objectPtr := readUInt32 heap.bytes (ptr + 16)
            let crc ← GetHashCode heap fuel m_eventPtr false crc
            GetHashCode heap fuel m_objectPtr false crc
        | some dataType =>
            some (SUPPORT_ComputeCRC heap.bytes (dataOf ptr)
              (GetAtomicDataUsedBytes dataType) crc)

/-! ## Enough fuel -/

attribute [local simp] hal_strlen_s hashFields GetHashCode

section Fields

variable {hash hash' : Nat → Nat → Option Nat}

theorem hashFields_mono
    (more : ∀ ptr crc code,
      hash ptr crc = some code → hash' ptr crc = some code)
    {totFields ptr crc code : Nat}
    (found : hashFields hash totFields ptr crc = some code) :
    hashFields hash' totFields ptr crc = some code := by
  induction totFields generalizing ptr crc with
  | zero => exact found
  | succ totFields inductionHypothesis =>
      simp only [hashFields, Option.bind_eq_bind, Option.bind_eq_some_iff]
        at found ⊢
      obtain ⟨first, firstFound, rest⟩ := found
      exact ⟨first, more _ _ _ firstFound, inductionHypothesis rest⟩

theorem hashFields_congr
    {totFields left right : Nat}
    (same : ∀ index < totFields, ∀ crc,
      hash (fieldOf left index) crc = hash (fieldOf right index) crc)
    (crc : Nat) :
    hashFields hash totFields left crc =
      hashFields hash totFields right crc := by
  induction totFields generalizing left right crc with
  | zero => rfl
  | succ totFields inductionHypothesis =>
      have first : hash (nextBlock left) crc = hash (nextBlock right) crc :=
        same 0 (Nat.succ_pos totFields) crc
      have rest : ∀ crc, hashFields hash totFields (nextBlock left) crc =
          hashFields hash totFields (nextBlock right) crc := by
        apply inductionHypothesis
        intro index below
        simpa only [fieldOf_nextBlock] using
          same (index + 1) (Nat.succ_lt_succ below)
      simp only [hashFields, first, rest]

end Fields

theorem hal_strlen_s_succ
    {memory : Bytes}
    {fuel str length : Nat}
    (found : hal_strlen_s memory fuel str = some length) :
    hal_strlen_s memory (fuel + 1) str = some length := by
  induction fuel generalizing str length with
  | zero => simp [hal_strlen_s] at found
  | succ fuel inductionHypothesis =>
      rw [hal_strlen_s] at found ⊢
      split at found
      case isTrue zero => rwa [if_pos zero]
      case isFalse other =>
        obtain ⟨rest, restFound, rfl⟩ := Option.map_eq_some_iff.mp found
        rw [if_neg other, inductionHypothesis restFound]
        rfl

theorem hal_strlen_s_terminated
    {memory : Bytes}
    {str length : Nat}
    (terminated : memory (str + length) = 0) :
    ∃ fuel length', hal_strlen_s memory fuel str = some length' := by
  induction length generalizing str with
  | zero =>
      refine ⟨1, 0, ?_⟩
      rw [hal_strlen_s]
      exact if_pos terminated
  | succ length inductionHypothesis =>
      have next : memory (str + 1 + length) = 0 := by
        rw [Nat.add_right_comm]
        exact terminated
      obtain ⟨fuel, length', found⟩ := inductionHypothesis next
      by_cases zero : memory str = 0
      · exact ⟨1, 0, by rw [hal_strlen_s]; exact if_pos zero⟩
      · refine ⟨fuel + 1, length' + 1, ?_⟩
        rw [hal_strlen_s, if_neg zero, found]
        rfl

theorem getHashCode_succ
    {heap : BlockMemory}
    {fuel ptr crc code : Nat}
    {fRecurse : Bool}
    (found : GetHashCode heap fuel ptr fRecurse crc = some code) :
    GetHashCode heap (fuel + 1) ptr fRecurse crc = some code := by
  induction fuel generalizing ptr fRecurse crc code with
  | zero => simp [GetHashCode] at found
  | succ fuel inductionHypothesis =>
      rw [GetHashCode] at found ⊢
      split at found
      case isTrue null => rwa [if_pos null]
      case isFalse block =>
        rw [if_neg block]
        cases type : dataTypeAt heap.bytes ptr with
        | none => simp [type] at found
        | some dataType =>
            simp only [type] at found ⊢
            cases dataType with
            | object => exact inductionHypothesis found
            | string =>
                simp only [Option.bind_eq_bind, Option.bind_eq_some_iff]
                  at found ⊢
                obtain ⟨length, lengthFound, rest⟩ := found
                exact ⟨length, hal_strlen_s_succ lengthFound, rest⟩
            | classType | valueType =>
                dsimp only at found ⊢
                split at found
                case isTrue recursive =>
                  rw [if_pos recursive]
                  split at found
                  case isTrue positive =>
                    rw [if_pos positive]
                    exact hashFields_mono
                      (fun _ _ _ => inductionHypothesis) found
                  case isFalse none => rwa [if_neg none]
                case isFalse flat => rwa [if_neg flat]
            | delegateHead =>
                simp only [Option.bind_eq_bind, Option.bind_eq_some_iff]
                  at found ⊢
                obtain ⟨first, firstFound, rest⟩ := found
                exact ⟨first, inductionHypothesis firstFound, rest⟩
            | objectToEvent =>
                simp only [Option.bind_eq_bind, Option.bind_eq_some_iff]
                  at found ⊢
                obtain ⟨first, firstFound, rest⟩ := found
                exact ⟨first, inductionHypothesis firstFound,
                  inductionHypothesis rest⟩
            | _ => exact found

theorem getHashCode_mono
    {heap : BlockMemory}
    {fuel fuel' ptr crc code : Nat}
    {fRecurse : Bool}
    (enough : fuel ≤ fuel')
    (found : GetHashCode heap fuel ptr fRecurse crc = some code) :
    GetHashCode heap fuel' ptr fRecurse crc = some code := by
  induction enough with
  | refl => exact found
  | step _ inductionHypothesis => exact getHashCode_succ inductionHypothesis

/-! ## Every block has a hash code -/

namespace BlockMemory

variable {heap : BlockMemory}

/-- With enough fuel the block gets a hash code from any checksum. -/
def Hashes (heap : BlockMemory) (fRecurse : Bool) (ptr : Nat) : Prop :=
  ∀ crc, ∃ fuel code, GetHashCode heap fuel ptr fRecurse crc = some code

theorem hashes_null (fRecurse : Bool) : heap.Hashes fRecurse 0 :=
  fun _ => ⟨1, 0, by simp [GetHashCode]⟩

theorem hashFields_hashes
    {ptr totFields : Nat}
    (fields : ∀ index < totFields, heap.Hashes false (fieldOf ptr index))
    (crc : Nat) :
    ∃ fuel code,
      hashFields (fun ptr crc => GetHashCode heap fuel ptr false crc)
        totFields ptr crc = some code := by
  induction totFields generalizing ptr crc with
  | zero => exact ⟨0, crc, rfl⟩
  | succ totFields inductionHypothesis =>
      obtain ⟨fuel, code, found⟩ := fields 0 (Nat.succ_pos totFields) crc
      have later : ∀ index < totFields,
          heap.Hashes false (fieldOf (nextBlock ptr) index) := by
        intro index below
        rw [fieldOf_nextBlock]
        exact fields (index + 1) (Nat.succ_lt_succ below)
      obtain ⟨fuel', code', found'⟩ := inductionHypothesis later code
      refine ⟨max fuel fuel', code', ?_⟩
      simp only [hashFields, Option.bind_eq_bind, Option.bind_eq_some_iff]
      refine ⟨code, getHashCode_mono (Nat.le_max_left fuel fuel') found, ?_⟩
      exact hashFields_mono
        (fun _ _ _ => getHashCode_mono (Nat.le_max_right fuel fuel')) found'

/-- The declared fields of an object are blocks. -/
theorem hashedField
    {ptr index : Nat}
    {dataType : DataType}
    (block : heap.IsBlock ptr)
    (type : dataTypeAt heap.bytes ptr = some dataType)
    (object : dataType = .classType ∨ dataType = .valueType)
    (below : index < heap.m_totalFields (objectCls heap.bytes ptr)) :
    heap.IsBlock (fieldOf ptr index) := by
  cases object with
  | inl isClass => exact heap.classFields block (isClass ▸ type) below
  | inr isValue =>
      apply heap.valueFields block (isValue ▸ type)
      rw [heap.sized block (isValue ▸ type)]
      split
      case isTrue optimized =>
        have atMost := heap.optimized optimized
        omega
      case isFalse => omega

theorem getHashCode_reference
    {ptr : Nat}
    (block : heap.IsBlock ptr)
    (type : dataTypeAt heap.bytes ptr = some .object)
    (fuel crc : Nat)
    (fRecurse : Bool) :
    GetHashCode heap (fuel + 1) ptr fRecurse crc =
      GetHashCode heap fuel (dereference heap.bytes ptr) fRecurse crc := by
  rw [GetHashCode, if_neg (heap.nonNull block), type]

/-- The hash code of an object of a class or a value type. -/
theorem getHashCode_object
    {ptr : Nat}
    {dataType : DataType}
    (block : heap.IsBlock ptr)
    (type : dataTypeAt heap.bytes ptr = some dataType)
    (object : dataType = .classType ∨ dataType = .valueType)
    (fuel crc : Nat)
    (fRecurse : Bool) :
    GetHashCode heap (fuel + 1) ptr fRecurse crc =
      if fRecurse then
        if 0 < heap.m_totalFields (objectCls heap.bytes ptr) then
          hashFields (fun ptr crc => GetHashCode heap fuel ptr false crc)
            (heap.m_totalFields (objectCls heap.bytes ptr)) ptr crc
        else some (SUPPORT_ComputeCRC (pointerBytes ptr) 0 4 crc)
      else some crc := by
  rw [GetHashCode, if_neg (heap.nonNull block), type]
  cases object with
  | inl isClass => rw [isClass]
  | inr isValue => rw [isValue]

theorem hashes_object
    {ptr : Nat}
    {dataType : DataType}
    {fRecurse : Bool}
    (block : heap.IsBlock ptr)
    (type : dataTypeAt heap.bytes ptr = some dataType)
    (object : dataType = .classType ∨ dataType = .valueType)
    (fields : fRecurse = true → ∀ other, heap.IsBlock other →
      heap.Hashes false other) :
    heap.Hashes fRecurse ptr := by
  intro crc
  cases fRecurse with
  | false =>
      refine ⟨1, crc, ?_⟩
      rw [getHashCode_object block type object]
      rfl
  | true =>
      by_cases positive : 0 < heap.m_totalFields (objectCls heap.bytes ptr)
      · have hashed := hashFields_hashes (fun index below =>
          fields rfl _ (hashedField block type object below)) crc
        obtain ⟨fuel, code, found⟩ := hashed
        refine ⟨fuel + 1, code, ?_⟩
        rw [getHashCode_object block type object, if_pos rfl, if_pos positive]
        exact found
      · refine ⟨1, SUPPORT_ComputeCRC (pointerBytes ptr) 0 4 crc, ?_⟩
        rw [getHashCode_object block type object, if_pos rfl, if_neg positive]

/-- The fields of a value type that are hashed are also compared. -/
theorem comparedField
    {ptr index : Nat}
    (block : heap.IsBlock ptr)
    (type : dataTypeAt heap.bytes ptr = some .valueType)
    (below : index < heap.m_totalFields (objectCls heap.bytes ptr)) :
    index < sub32 (dataSizeAt heap.bytes ptr) 1 := by
  have count := fieldCount block type
  have sized := heap.sized block type
  split at sized
  case isTrue optimized =>
    have atMost := heap.optimized optimized
    omega
  case isFalse => omega

/-- A block has a hash code if the blocks that it refers to have one. -/
theorem hashes_step
    {ptr : Nat}
    {fRecurse : Bool}
    (block : heap.IsBlock ptr)
    (referents : ∀ other, heap.IsBlock other → heap.rank other <
      heap.rank ptr → heap.Hashes fRecurse other ∧ heap.Hashes false other)
    (fields : fRecurse = true → ∀ other, heap.IsBlock other →
      heap.Hashes false other) :
    heap.Hashes fRecurse ptr := by
  intro crc
  have nonNull := heap.nonNull block
  obtain ⟨dataType, type⟩ := Option.isSome_iff_exists.mp (heap.typed block)
  cases dataType with
  | object =>
      have hashed : heap.Hashes fRecurse (dereference heap.bytes ptr) := by
        by_cases null : dereference heap.bytes ptr = 0
        · exact null ▸ hashes_null fRecurse
        · have next := heap.referent block type null
          exact (referents _ next.1 next.2).1
      obtain ⟨fuel, code, found⟩ := hashed crc
      refine ⟨fuel + 1, code, ?_⟩
      rw [getHashCode_reference block type]
      exact found
  | string =>
      obtain ⟨length, terminated⟩ := heap.text block type
      obtain ⟨fuel, length', found⟩ := hal_strlen_s_terminated terminated
      refine ⟨fuel + 1, SUPPORT_ComputeCRC heap.bytes
        (readUInt32 heap.bytes (dataOf ptr)) length' crc, ?_⟩
      rw [GetHashCode, if_neg nonNull, type]
      simp only [found, Option.bind_eq_bind, Option.bind_some]
  | classType => exact hashes_object block type (Or.inl rfl) fields crc
  | valueType => exact hashes_object block type (Or.inr rfl) fields crc
  | delegateHead =>
      have next := heap.delegate block type
      obtain ⟨fuel, code, found⟩ := (referents _ next.1 next.2).2 crc
      refine ⟨fuel + 1, SUPPORT_ComputeCRC heap.bytes (ptr + 16) 4 code, ?_⟩
      rw [GetHashCode, if_neg nonNull, type]
      simp only [found, Option.bind_eq_bind, Option.bind_some]
  | objectToEvent =>
      have hashed : ∀ link, link = ptr + 12 ∨ link = ptr + 16 →
          heap.Hashes false (readUInt32 heap.bytes link) := by
        intro link isLink
        by_cases null : readUInt32 heap.bytes link = 0
        · exact null ▸ hashes_null false
        · have next := heap.event block type isLink null
          exact (referents _ next.1 next.2).2
      obtain ⟨fuel, code, found⟩ := hashed (ptr + 12) (Or.inl rfl) crc
      obtain ⟨fuel', code', found'⟩ := hashed (ptr + 16) (Or.inr rfl) code
      refine ⟨max fuel fuel' + 1, code', ?_⟩
      rw [GetHashCode, if_neg nonNull, type]
      simp only [Option.bind_eq_bind, Option.bind_eq_some_iff]
      exact ⟨code, getHashCode_mono (Nat.le_max_left fuel fuel') found,
        getHashCode_mono (Nat.le_max_right fuel fuel') found'⟩
  | _ =>
      refine ⟨1, ?_⟩
      rw [GetHashCode, if_neg nonNull, type]
      exact ⟨_, rfl⟩

theorem hashes_of_fields
    {fRecurse : Bool}
    (fields : fRecurse = true → ∀ other, heap.IsBlock other →
      heap.Hashes false other)
    {ptr : Nat}
    (block : heap.IsBlock ptr) :
    heap.Hashes fRecurse ptr := by
  induction height : heap.rank ptr using Nat.strong_induction_on
    generalizing ptr with
  | _ bound inductionHypothesis =>
      apply hashes_step block _ fields
      intro other otherBlock below
      have hashed := inductionHypothesis _ (height ▸ below) otherBlock rfl
      refine ⟨hashed, ?_⟩
      cases fRecurse with
      | false => exact hashed
      | true => exact fields rfl other otherBlock

/-- No hash code is left open. -/
theorem hashes
    {ptr : Nat}
    (block : heap.IsBlock ptr) :
    heap.Hashes true ptr := by
  apply hashes_of_fields _ block
  intro _ other otherBlock
  exact hashes_of_fields (fun absurd => Bool.noConfusion absurd) otherBlock

end BlockMemory

/-! ## Equal blocks -/

/-- The types of which the checksum takes bytes that the comparison leaves
out. -/
def comparedInPart : DataType → Bool
  | .szArray => true
  | .reflection => false
  | dataType =>
      !TypeSystem.c_Reference dataType &&
        comparedBytes dataType < GetAtomicDataUsedBytes dataType

/-- The blocks that two blocks come to when references are followed on both
sides. -/
inductive Referents (memory : Bytes) (left right : Nat) : Nat → Nat → Prop
  | here : Referents memory left right left right
  | follow {objLeft objRight : Nat} :
      Referents memory left right objLeft objRight →
      dataTypeAt memory objLeft = some .object →
      Referents memory left right
        (dereference memory objLeft) (dereference memory objRight)

/-- The data that are hashed and not compared are the same. -/
def SameHashed (memory : Bytes) (left right : Nat) : Prop :=
  ∀ dataType, dataTypeAt memory left = some dataType →
    comparedInPart dataType → SameBytes memory (dataOf left) (dataOf right) 8

/-- Two fields whose hash codes agree if they are equal. -/
def FieldsHashedAlike (memory : Bytes) (left right : Nat) : Prop :=
  ∀ objLeft objRight, Referents memory left right objLeft objRight →
    objLeft ≠ objRight → SameHashed memory objLeft objRight

namespace BlockMemory

/-- Two blocks whose hash codes agree if they are equal: the same block, or
blocks whose data agree where only the hash code depends on them, and value
types that have fields. -/
def HashedAlike (heap : BlockMemory) (left right : heap.Block) : Prop :=
  ∀ objLeft objRight,
    Referents heap.bytes left.val right.val objLeft objRight →
    objLeft ≠ objRight →
      SameHashed heap.bytes objLeft objRight ∧
        (dataTypeAt heap.bytes objLeft = some .valueType →
          0 < heap.m_totalFields (objectCls heap.bytes objLeft) ∧
            ∀ index < heap.m_totalFields (objectCls heap.bytes objLeft),
              FieldsHashedAlike heap.bytes (fieldOf objLeft index)
                (fieldOf objRight index))

end BlockMemory

theorem Referents.head
    {memory : Bytes}
    {left right objLeft objRight : Nat}
    (reference : dataTypeAt memory left = some .object)
    (found : Referents memory (dereference memory left)
      (dereference memory right) objLeft objRight) :
    Referents memory left right objLeft objRight := by
  induction found with
  | here => exact Referents.here.follow reference
  | follow _ type inductionHypothesis => exact inductionHypothesis.follow type

theorem SameBytes.take
    {memory : Bytes}
    {left right size size' : Nat}
    (same : SameBytes memory left right size)
    (atMost : size' ≤ size) :
    SameBytes memory left right size' :=
  fun index below => same index (below.trans_le atMost)

theorem usedBytes_le (dataType : DataType) :
    GetAtomicDataUsedBytes dataType ≤ 8 := by
  cases dataType <;> decide

/-- The types of which only the data of the block count. -/
def Plain (dataType : DataType) : Prop :=
  dataType = .reflection ∨ dataType = .szArray ∨
    TypeSystem.c_Reference dataType = false

/-- What equal blocks at different addresses may be. -/
theorem kind_of_equalData
    {memory : Bytes}
    {equal : Nat → Nat → Prop}
    {fSameReference : Bool}
    {left right : Nat}
    {dataType : DataType}
    (data : EqualData memory equal fSameReference left right dataType) :
    dataType = .object ∨ dataType = .valueType ∨ Plain dataType := by
  cases dataType with
  | object => exact Or.inl rfl
  | valueType => exact Or.inr (Or.inl rfl)
  | reflection => exact Or.inr (Or.inr (Or.inl rfl))
  | szArray => exact Or.inr (Or.inr (Or.inr (Or.inl rfl)))
  | _ => exact Or.inr (Or.inr (Or.inr (Or.inr data.2.1)))

/-- What the checksum takes of two equal blocks that refer to nothing. -/
theorem sameUsedBytes
    {memory : Bytes}
    {equal : Nat → Nat → Prop}
    {left right : Nat}
    {dataType : DataType}
    (type : dataTypeAt memory left = some dataType)
    (plain : Plain dataType)
    (data : EqualData memory equal false left right dataType)
    (hashed : SameHashed memory left right) :
    SameBytes memory (dataOf left) (dataOf right)
      (GetAtomicDataUsedBytes dataType) := by
  by_cases part : comparedInPart dataType = true
  · exact (hashed dataType type part).take (usedBytes_le dataType)
  · cases dataType with
    | reflection => exact data
    | szArray => exact absurd rfl part
    | object | valueType => simp [Plain, TypeSystem.c_Reference] at plain
    | _ =>
        have inside := data.2.1
        simp only [comparedInPart, inside, Bool.not_false, Bool.true_and,
          decide_eq_true_eq, Nat.not_lt] at part
        exact data.2.2.take part

namespace BlockMemory

variable {heap : BlockMemory}

/-- The hash code of a block of which only the data count. -/
theorem getHashCode_plain
    {ptr : Nat}
    {dataType : DataType}
    (block : heap.IsBlock ptr)
    (type : dataTypeAt heap.bytes ptr = some dataType)
    (plain : Plain dataType)
    (fuel crc : Nat)
    (fRecurse : Bool) :
    GetHashCode heap (fuel + 1) ptr fRecurse crc =
      some (SUPPORT_ComputeCRC heap.bytes (dataOf ptr)
        (GetAtomicDataUsedBytes dataType) crc) := by
  rw [GetHashCode, if_neg (heap.nonNull block), type]
  cases dataType with
  | object | string | classType | valueType | delegateHead | objectToEvent =>
      simp [Plain, TypeSystem.c_Reference] at plain
  | _ => rfl

/-- The hash codes of two blocks and of what they refer to, as far as fields
are not hashed or have the same hash codes. -/
theorem getHashCode_congr
    {fRecurse : Bool}
    (fields : fRecurse = true → ∀ {left right fuel},
      heap.IsBlock left → heap.IsBlock right →
      ObjectsEqual heap.bytes fuel left right false = some true →
      FieldsHashedAlike heap.bytes left right →
      ∀ fuel crc, GetHashCode heap fuel left false crc =
        GetHashCode heap fuel right false crc)
    {left right fuel : Nat}
    (leftBlock : heap.IsBlock left)
    (rightBlock : heap.IsBlock right)
    (equal : ObjectsEqual heap.bytes fuel left right false = some true)
    (alike : ∀ objLeft objRight,
      Referents heap.bytes left right objLeft objRight →
      objLeft ≠ objRight →
        SameHashed heap.bytes objLeft objRight ∧
          (fRecurse = true →
            dataTypeAt heap.bytes objLeft = some .valueType →
            0 < heap.m_totalFields (objectCls heap.bytes objLeft) ∧
              ∀ index < heap.m_totalFields (objectCls heap.bytes objLeft),
                FieldsHashedAlike heap.bytes (fieldOf objLeft index)
                  (fieldOf objRight index)))
    (hashFuel crc : Nat) :
    GetHashCode heap hashFuel left fRecurse crc =
      GetHashCode heap hashFuel right fRecurse crc := by
  induction hashFuel generalizing left right fuel with
  | zero => rfl
  | succ hashFuel inductionHypothesis =>
      cases fuel with
      | zero => simp [ObjectsEqual] at equal
      | succ fuel =>
          by_cases same : left = right
          · rw [same]
          obtain ⟨sameType, dataType, leftType, data⟩ :=
            (objectsEqual_iff.mp equal).resolve_left same
          have rightType := (dataTypeAt_congr sameType).symm.trans leftType
          have here := alike left right Referents.here same
          rcases kind_of_equalData data with rfl | rfl | plain
          case inl =>
              rw [getHashCode_reference leftBlock leftType,
                getHashCode_reference rightBlock rightType]
              cases data with
              | inl sameObject => simp only [sameObject]
              | inr found =>
                  obtain ⟨⟨leftObject, rightObject, -⟩, equal⟩ := found
                  exact inductionHypothesis
                    (heap.referent leftBlock leftType leftObject).1
                    (heap.referent rightBlock rightType rightObject).1 equal
                    fun objLeft objRight referents =>
                      alike objLeft objRight (referents.head leftType)
          case inr.inl =>
              rw [getHashCode_object leftBlock leftType (Or.inr rfl),
                getHashCode_object rightBlock rightType (Or.inr rfl)]
              cases fRecurse with
              | false =>
                  rw [if_neg Bool.false_ne_true, if_neg Bool.false_ne_true]
              | true =>
                  obtain ⟨positive, fieldsAlike⟩ := here.2 rfl leftType
                  have sameClass : objectCls heap.bytes left =
                      objectCls heap.bytes right := data.1
                  rw [if_pos rfl, if_pos rfl, ← sameClass, if_pos positive,
                    if_pos positive]
                  apply hashFields_congr
                  intro index below crc
                  have rightBelow := sameClass ▸ below
                  have leftField := hashedField leftBlock leftType
                    (Or.inr rfl) below
                  have rightField := hashedField rightBlock rightType
                    (Or.inr rfl) rightBelow
                  have compared := comparedField leftBlock leftType below
                  exact fields rfl leftField rightField
                    (data.2 index compared) (fieldsAlike index below)
                    hashFuel crc
          case inr.inr =>
              rw [getHashCode_plain leftBlock leftType plain,
                getHashCode_plain rightBlock rightType plain]
              have used := sameUsedBytes leftType plain data here.1
              rw [computeCRC_congr used]

theorem fields_congr
    {left right fuel : Nat}
    (leftBlock : heap.IsBlock left)
    (rightBlock : heap.IsBlock right)
    (equal : ObjectsEqual heap.bytes fuel left right false = some true)
    (alike : FieldsHashedAlike heap.bytes left right)
    (hashFuel crc : Nat) :
    GetHashCode heap hashFuel left false crc =
      GetHashCode heap hashFuel right false crc := by
  apply getHashCode_congr (fun absurd => Bool.noConfusion absurd)
    leftBlock rightBlock equal
  intro objLeft objRight referents different
  exact ⟨alike objLeft objRight referents different,
    fun absurd => Bool.noConfusion absurd⟩

/-- Two blocks get one hash code. -/
def SameHashCode (heap : BlockMemory) (left right : heap.Block) : Prop :=
  (∃ fuel code, GetHashCode heap fuel left.val true 0 = some code) ∧
    ∀ fuel, GetHashCode heap fuel left.val true 0 =
      GetHashCode heap fuel right.val true 0

/-- `ObjectsEqual` is an equivalence, and equal blocks have one hash code where
the checksum depends on no data that the comparison leaves out. -/
theorem equal_sameHashCode (heap : BlockMemory) :
    (∀ fSameReference, Equivalence (heap.Equal fSameReference)) ∧
      ∀ left right : heap.Block, heap.Equal false left right →
        heap.HashedAlike left right → heap.SameHashCode left right := by
  refine ⟨heap.equal_equivalence, ?_⟩
  rintro left right ⟨fuel, equal⟩ alike
  refine ⟨hashes left.property 0, ?_⟩
  intro hashFuel
  apply getHashCode_congr (fun _ _ _ _ => fields_congr) left.property
    right.property equal
  intro objLeft objRight referents different
  have parts := alike objLeft objRight referents different
  exact ⟨parts.1, fun _ => parts.2⟩

/-! ## Numbers that are equal and not hashed alike -/

/-- The number 1 as a signed byte, boxed twice; the unused word of the second
one holds what the stack slot held. -/
def boxedBytes (leftover : UInt8) : Bytes := fun address =>
  ([0, 0, 0, 0,
    18, 0x10, 2, 0, 7, 0, 0, 0, 0, 0, 0, 0,
    2, 0, 1, 0, 1, 0, 0, 0, 0, 0, 0, 0,
    18, 0x10, 2, 0, 7, 0, 0, 0, 0, 0, 0, 0,
    2, 0, 1, 0, 1, 0, 0, 0, leftover, 0, 0, 0] : List UInt8).getD address 0

theorem boxedBytes_types
    (leftover : UInt8)
    {ptr : Nat}
    (block : ptr ∈ [4, 16, 28, 40]) :
    (ptr = 4 ∨ ptr = 28) ∧
        dataTypeAt (boxedBytes leftover) ptr = some .valueType ∨
      (ptr = 16 ∨ ptr = 40) ∧
        dataTypeAt (boxedBytes leftover) ptr = some .i1 := by
  simp only [List.mem_cons, List.not_mem_nil, or_false] at block
  rcases block with rfl | rfl | rfl | rfl
  · exact Or.inl ⟨Or.inl rfl, rfl⟩
  · exact Or.inr ⟨Or.inl rfl, rfl⟩
  · exact Or.inl ⟨Or.inr rfl, rfl⟩
  · exact Or.inr ⟨Or.inr rfl, rfl⟩

/-- No block is of another type. -/
theorem boxedBytes_noOther
    {leftover : UInt8}
    {ptr : Nat}
    {dataType : DataType}
    (block : ptr ∈ [4, 16, 28, 40])
    (type : dataTypeAt (boxedBytes leftover) ptr = some dataType)
    (notValue : dataType ≠ .valueType)
    (notByte : dataType ≠ .i1) :
    False := by
  rcases boxedBytes_types leftover block with ⟨-, found⟩ | ⟨-, found⟩
  · exact notValue (Option.some.inj (type.symm.trans found))
  · exact notByte (Option.some.inj (type.symm.trans found))

theorem boxedBytes_boxed
    {leftover : UInt8}
    {ptr : Nat}
    (block : ptr ∈ [4, 16, 28, 40])
    (type : dataTypeAt (boxedBytes leftover) ptr = some .valueType) :
    dataSizeAt (boxedBytes leftover) ptr = 2 ∧ (ptr = 4 ∨ ptr = 28) := by
  rcases boxedBytes_types leftover block with ⟨rfl | rfl, -⟩ | ⟨-, found⟩
  · exact ⟨rfl, Or.inl rfl⟩
  · exact ⟨rfl, Or.inr rfl⟩
  · simp [found] at type

/-- Two boxed numbers of one byte with other bytes behind them. -/
def boxedNumbers (leftover : UInt8) : BlockMemory where
  bytes := boxedBytes leftover
  m_totalFields := fun _ => 1
  optimizedValueType := fun _ => true
  IsBlock := fun ptr => ptr ∈ [4, 16, 28, 40]
  rank := fun _ => 0
  nonNull := by
    rintro ptr block rfl
    exact absurd block (by decide)
  typed := by
    intro ptr block
    rcases boxedBytes_types leftover block with ⟨-, type⟩ | ⟨-, type⟩ <;>
      simp only [type, Option.isSome_some]
  referent := fun block type =>
    (boxedBytes_noOther block type (by decide) (by decide)).elim
  text := fun block type =>
    (boxedBytes_noOther block type (by decide) (by decide)).elim
  classFields := fun block type =>
    (boxedBytes_noOther block type (by decide) (by decide)).elim
  valueFields := by
    intro ptr index block type below
    obtain ⟨size, place⟩ := boxedBytes_boxed block type
    have first : index = 0 := by omega
    rcases place with rfl | rfl <;> subst first <;> decide
  sized := fun block type => (boxedBytes_boxed block type).1
  optimized := fun _ => Nat.le_refl 1
  elements := fun block type =>
    (boxedBytes_noOther block type (by decide) (by decide)).elim
  delegate := fun block type =>
    (boxedBytes_noOther block type (by decide) (by decide)).elim
  event := fun block type =>
    (boxedBytes_noOther block type (by decide) (by decide)).elim

/-- The first of the boxed numbers. -/
def firstBoxed (leftover : UInt8) : (boxedNumbers leftover).Block :=
  ⟨4, show 4 ∈ [4, 16, 28, 40] by decide⟩

/-- The second of the boxed numbers. -/
def secondBoxed (leftover : UInt8) : (boxedNumbers leftover).Block :=
  ⟨28, show 28 ∈ [4, 16, 28, 40] by decide⟩

theorem referents_of_noReference
    {memory : Bytes}
    {left right objLeft objRight : Nat}
    (noReference : dataTypeAt memory left ≠ some .object)
    (referents : Referents memory left right objLeft objRight) :
    objLeft = left ∧ objRight = right := by
  induction referents with
  | here => exact ⟨rfl, rfl⟩
  | follow _ type inductionHypothesis =>
      rw [inductionHypothesis.1] at type
      exact absurd type noReference

/-- Two boxed signed bytes that agree in their unused bytes too. -/
theorem equal_sameHashCode_boxed :
    (boxedNumbers 0).SameHashCode (firstBoxed 0) (secondBoxed 0) := by
  have equal : (boxedNumbers 0).Equal false (firstBoxed 0) (secondBoxed 0) :=
    ⟨2, by decide +kernel⟩
  apply (equal_sameHashCode (boxedNumbers 0)).2 _ _ equal
  intro objLeft objRight referents _
  obtain ⟨rfl, rfl⟩ := referents_of_noReference (by decide) referents
  refine ⟨?_, fun _ => ⟨Nat.one_pos, ?_⟩⟩
  · rintro dataType type part
    have boxed : some dataType = some DataType.valueType := type.symm.trans rfl
    obtain rfl := Option.some.inj boxed
    exact absurd part (by decide)
  · intro index below fieldLeft fieldRight referents _
    obtain rfl := Nat.lt_one_iff.mp below
    obtain ⟨rfl, rfl⟩ := referents_of_noReference (by decide) referents
    intro _ _ _
    decide

/-- Two boxed signed bytes that are equal and have different hash codes. -/
theorem not_equal_sameHashCode :
    ¬ ∀ (heap : BlockMemory) (left right : heap.Block),
      heap.Equal false left right → heap.SameHashCode left right := by
  intro claim
  have equal : (boxedNumbers 5).Equal false (firstBoxed 5) (secondBoxed 5) :=
    ⟨2, by decide +kernel⟩
  have sameCode := (claim _ _ _ equal).2 2
  exact absurd sameCode (by decide +kernel)

end BlockMemory

end HeapBlocks

end NanoClr
