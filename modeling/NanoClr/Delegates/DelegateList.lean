import Mathlib.Algebra.Ring.Int.Defs
import Mathlib.Algebra.Ring.Nat
import Mathlib.Data.List.Infix
import Mathlib.Data.List.ReduceOption

/-!
# Delegates and lists of delegates

`CLR_RT_HeapBlock_Delegate_List` combines delegates and removes them. A result
that is not one of the operands is a list in new memory.
-/

namespace NanoClr

namespace Delegates

/-- A method and the object that it is called on. -/
structure Delegate where
  m_cls : UInt32
  m_ftn : UInt32
  m_object : Option Nat

/-- Entries are delegates, by address; those that were collected are null. -/
structure DelegateList where
  m_cls : UInt32
  m_flags : UInt32
  delegates : List (Option Nat)

/-- The flag of a weak list. -/
def c_Weak : UInt32 := 0x00000001

/-- A reference to a delegate or to a list of them. -/
inductive Reference where
  | null
  | delegate (address : Nat)
  | list (address : Nat)
deriving DecidableEq

/-- A heap block; only one of type `DATATYPE_OBJECT` holds a reference. -/
inductive Block where
  | object (reference : Reference)
  | other

/-- The delegates by their addresses, and the lists in the order in which they
were extracted. -/
structure DelegateMemory where
  delegates : Nat → Delegate
  lists : List DelegateList

namespace DelegateMemory

/-- The list at an address. -/
def listAt (memory : DelegateMemory) (address : Nat) : DelegateList :=
  memory.lists.getD address { m_cls := 0, m_flags := 0, delegates := [] }

/-- The entries that a reference stands for: `oldDlgs`, `oldNum` of them. -/
def entries (memory : DelegateMemory) : Reference → List (Option Nat)
  | .null => []
  | .delegate address => [some address]
  | .list address => (memory.listAt address).delegates

/-- `dlgListSrc->m_flags`, which is read of lists only. -/
def flags (memory : DelegateMemory) : Reference → UInt32
  | .list address => (memory.listAt address).m_flags
  | _ => 0

/-- Both call the same method on the same object. -/
def sameTarget (memory : DelegateMemory) (ptr dlg : Nat) : Bool :=
  (memory.delegates ptr).m_ftn == (memory.delegates dlg).m_ftn &&
    (memory.delegates ptr).m_object == (memory.delegates dlg).m_object

end DelegateMemory

/-- The results of `Change`. -/
inductive HRESULT where
  | S_OK
  | CLR_E_WRONG_TYPE
  | CLR_E_OUT_OF_MEMORY
deriving DecidableEq

/-- What an operation leaves: the memory, `reference` and the result. -/
structure Changed where
  memory : DelegateMemory
  reference : Reference
  hr : HRESULT

/-- The entries that have not been collected. -/
def CopyAndCompress (src : List (Option Nat)) : List (Option Nat) :=
  src.filter Option.isSome

/-- The reference in an entry. -/
def referenceOf : Option Nat → Reference
  | none => .null
  | some address => .delegate address

section Change

variable (extracts : DelegateMemory → Nat → Bool)

/-- `CreateInstance` for `newNum` entries, which are then filled. The heap
decides whether there is memory. -/
def CreateInstance
    (memory : DelegateMemory)
    (newNum : Nat)
    (dlgListDst : DelegateList) : Changed :=
  if extracts memory newNum then
    { memory := { memory with lists := memory.lists ++ [dlgListDst] }
      reference := .list memory.lists.length
      hr := .S_OK }
  else
    { memory := memory
      reference := .null
      hr := .CLR_E_OUT_OF_MEMORY }

/-- `Change` for a target that is a delegate. -/
def changeDelegate
    (memory : DelegateMemory)
    (delegateSrc : Reference)
    (delegateTarget : Nat)
    (fCombine fWeak : Bool) : Changed :=
  let dlg := memory.delegates delegateTarget
  let oldDlgs := memory.entries delegateSrc
  let oldNum := oldDlgs.length
  let listOf (delegates : List (Option Nat)) : DelegateList :=
    { m_cls := dlg.m_cls
      m_flags := (if 1 < oldNum then memory.flags delegateSrc else 0) |||
        (if fWeak then c_Weak else 0)
      delegates := delegates }
  if fCombine then
    if oldNum = 0 ∧ fWeak = false then
      { memory := memory, reference := .delegate delegateTarget, hr := .S_OK }
    else
      CreateInstance extracts memory (oldNum + 1)
        (listOf (CopyAndCompress oldDlgs ++ [some delegateTarget]))
  else
    let num := oldDlgs.findIdx fun ptr =>
      ptr.any fun ptr => memory.sameTarget ptr delegateTarget
    if num = oldNum then
      { memory := memory, reference := delegateSrc, hr := .S_OK }
    else if oldNum = 2 ∧ memory.flags delegateSrc &&& c_Weak = 0 then
      { memory := memory
        reference := referenceOf (oldDlgs.getD (1 - num) none)
        hr := .S_OK }
    else if oldNum = 1 then
      { memory := memory, reference := .null, hr := .S_OK }
    else
      CreateInstance extracts memory (oldNum - 1)
        (listOf (CopyAndCompress (oldDlgs.take num) ++
          CopyAndCompress (oldDlgs.drop (num + 1))))

/-- The loop of `Change` over the entries of a target that is a list. Entries
are delegates, never lists. -/
def changeEach
    (fCombine fWeak : Bool) :
    DelegateMemory → Reference → Reference → List (Option Nat) → Changed
  | memory, _, reference, [] =>
      { memory := memory, reference := reference, hr := .S_OK }
  | memory, intermediate, reference, none :: newDlgs =>
      changeEach fCombine fWeak memory intermediate reference newDlgs
  | memory, intermediate, _, some dlg :: newDlgs =>
      let changed := changeDelegate extracts memory intermediate dlg fCombine
        fWeak
      if changed.hr = .S_OK then
        changeEach fCombine fWeak changed.memory changed.reference
          changed.reference newDlgs
      else
        changed

/-- `Change`: the delegates of the target are added to the source or removed
from it, one after the other. -/
def Change
    (memory : DelegateMemory)
    (delegateSrc delegateTarget : Block)
    (fCombine fWeak : Bool) : Changed :=
  match delegateSrc, delegateTarget with
  | .object delegateSrc, .object .null =>
      { memory := memory, reference := delegateSrc, hr := .S_OK }
  | .object delegateSrc, .object (.delegate address) =>
      changeDelegate extracts memory delegateSrc address fCombine fWeak
  | .object delegateSrc, .object (.list address) =>
      changeEach extracts fCombine fWeak memory delegateSrc .null
        (memory.listAt address).delegates
  | _, _ =>
      { memory := memory, reference := .null, hr := .CLR_E_WRONG_TYPE }

/-- `Combine`: the new delegates are added. -/
def Combine
    (memory : DelegateMemory)
    (delegateSrc delegateNew : Block)
    (fWeak : Bool) : Changed :=
  Change extracts memory delegateSrc delegateNew true fWeak

/-- `Remove`: the old delegates are removed. -/
def Remove
    (memory : DelegateMemory)
    (delegateSrc delegateOld : Block) : Changed :=
  Change extracts memory delegateSrc delegateOld false false

end Change

end Delegates

end NanoClr
