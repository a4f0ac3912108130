import NanoClr.Library.Loop
import NanoClr.Support.ComputeCRC
import NanoClr.Text.CharArrays

/-!
# Searching in strings

`IndexOf` serves all overloads that look for a character, for one of several
characters or for a string, from the start or backward.  It walks over the
text with a helper and counts the characters as it goes.
-/

namespace NanoClr

namespace Text

open Arrays CLR_RT_UnicodeHelper

/-- What a call looks for; a null reference is none. -/
inductive SearchArgument where
  | singleChar (u2 : UInt16)
  | multipleChars (array : Option (List UInt16))
  | string (text : Option (List UInt8))

/-- What is left to look for once null references are refused. -/
inductive Sought where
  | chars (pChars : List UInt16)
  | string (pString : List UInt8)

/-- What an argument asks for, unless it is NULL. -/
def SearchArgument.sought : SearchArgument → Option Sought
  | singleChar u2 => some (.chars [u2])
  | multipleChars array => array.map .chars
  | string text => text.map .string

/-- A call: `mode` tells which arguments there are and whether it is one of
the `Last` forms. -/
structure IndexOfCall where
  szText : Option (List UInt8)
  argument : SearchArgument
  startIndex : Option Int
  count : Option Int
  last : Bool

/-! ## The buffers -/

/-- The place of the character that is read from the string. -/
def bufInput : Nat := 0

/-- The place of the character that is read from what is sought. -/
def bufSearch : Nat := 3

/-- The helper with one of the buffers for its output. -/
def readsTo (buf : Nat) (helper : CLR_RT_UnicodeHelper) :
    CLR_RT_UnicodeHelper :=
  { helper with m_outputUTF16 := buf, m_outputUTF16_size := 2 }

/-- `ConvertFromUTF8` of one character. -/
def readTo (buf : Nat) (memory : TextMemory) (helper : CLR_RT_UnicodeHelper) :
    Bool × TextMemory × CLR_RT_UnicodeHelper :=
  (readsTo buf helper).ConvertFromUTF8 memory 1 false (-1)

/-- A helper at an address of the text. -/
def inputAt (address : Nat) : CLR_RT_UnicodeHelper :=
  { helperAtStart 0 with m_inputUTF8 := address }

/-! ## The loops -/

/-- The variables of the loops. -/
structure IndexOfState where
  startIndex : Int
  memory : TextMemory
  inputIterator : CLR_RT_UnicodeHelper

/-- One round of the loop over positions in the mode for characters. -/
def charRound
    (charIsSigned last : Bool)
    (pChars : List UInt16)
    (state : IndexOfState) : LoopStep IndexOfState Int :=
  let read := readTo bufInput state.memory state.inputIterator
  if read.1 = false then .done (-1)
  else if read.2.1.utf16 bufInput ∈ pChars then .done state.startIndex
  else if last then
    let back := read.2.2.MoveBackwardInUTF8 charIsSigned read.2.1 0 2
    if back.1 then .next ⟨state.startIndex - 1, read.2.1, back.2⟩
    else .done (-1)
  else .next ⟨state.startIndex + 1, read.2.1, read.2.2⟩

/-- The two helpers while a string is compared. -/
structure CompareState where
  memory : TextMemory
  inputString : CLR_RT_UnicodeHelper
  searchString : CLR_RT_UnicodeHelper

/-- The outcomes of comparing a string. -/
inductive Comparison where
  | found
  | finished
  | different
deriving DecidableEq

/-- One round of the loop over the characters of the search string. -/
def compareRound (state : CompareState) : LoopStep CompareState Comparison :=
  let search := readTo bufSearch state.memory state.searchString
  if search.1 = false then .done .found
  else
    let input := readTo bufInput search.2.1 state.inputString
    if input.1 = false then .done .finished
    else if input.2.1.utf16 bufInput ≠ input.2.1.utf16 bufSearch then
      .done .different
    else .next ⟨input.2.1, input.2.2, search.2.2⟩

/-- The loop over the characters; each round reads a byte of the search
string. -/
def compareString
    (pString length : Nat)
    (memory : TextMemory)
    (inputIterator : CLR_RT_UnicodeHelper) : Option Comparison :=
  loop compareRound (length + 1)
    ⟨memory, inputAt inputIterator.m_inputUTF8, inputAt pString⟩

/-- One round of the loop over positions in the mode for strings. -/
def stringRound
    (charIsSigned last : Bool)
    (pString length : Nat)
    (state : IndexOfState) : LoopStep IndexOfState Int :=
  match compareString pString length state.memory state.inputIterator with
  | some .found => .done state.startIndex
  | some .different =>
      if last then
        let back := state.inputIterator.MoveBackwardInUTF8 charIsSigned
          state.memory 0 1
        if back.1 then .next ⟨state.startIndex - 1, state.memory, back.2⟩
        else .done (-1)
      else
        let moved := state.inputIterator.ConvertFromUTF8 state.memory 1 true
          (-1)
        if moved.1 then .next ⟨state.startIndex + 1, moved.2.1, moved.2.2⟩
        else .done (-1)
  | _ => .done (-1)

/-- The positions from `startIndex` on, or back from it, are tried. -/
def tryPositions
    (charIsSigned last : Bool)
    (sought : Sought)
    (pString : Nat)
    (count : Int)
    (state : IndexOfState) : Int :=
  let round :=
    match sought with
    | .chars pChars => charRound charIsSigned last pChars
    | .string text => stringRound charIsSigned last pString text.length
  (loop round count.toNat state).getD (-1)

/-! ## The call -/

/-- The text and the search string, each with its zero. -/
def callMemory (szText : List UInt8) : Sought → TextMemory
  | .chars _ => ⟨textOf szText, fun _ => 0⟩
  | .string pString => ⟨textOf (szText ++ 0 :: pString), fun _ => 0⟩

/-- A string is sought, and not one of several characters. -/
def Sought.isString : Sought → Bool
  | chars _ => false
  | string _ => true

/-- The length of a search string, and 1 otherwise. -/
def Sought.searchLen (szText : List UInt8) (sought : Sought) : Option Int :=
  match sought with
  | chars _ => some 1
  | string pString =>
      (inputAt (szText.length + 1)).CountNumberOfCharacters
        (pString.length + 1) (callMemory szText sought) (-1)

/-- What follows once both lengths are known. -/
def searchFrom
    (charIsSigned : Bool)
    (call : IndexOfCall)
    (szText : List UInt8)
    (sought : Sought)
    (searchLen inputLen : Int) : CallResult Int :=
  let startIndex :=
    call.startIndex.getD (if call.last then inputLen - 1 else 0)
  if startIndex < 0 ∨ inputLen < startIndex then
    .failed .CLR_E_OUT_OF_RANGE
  else
    let stringLast := sought.isString && call.last
    let startIndex :=
      if stringLast then startIndex - (searchLen - 1) else startIndex
    if stringLast ∧ (startIndex < 0 ∨ inputLen < startIndex) then
      .S_OK (-1)
    else
      let count := call.count.getD
        (if call.last then startIndex + 1 else inputLen - startIndex)
      let count :=
        if sought.isString ∧ ¬ call.last then toInt32 (count - (searchLen - 1))
        else count
      if call.last ∧ startIndex + 1 < count then
        .S_OK (-1)
      else if ¬ call.last ∧ inputLen < toInt32 (startIndex + count) then
        .failed .CLR_E_OUT_OF_RANGE
      else
        let moved := (inputAt 0).ConvertFromUTF8 (callMemory szText sought)
          startIndex true (-1)
        if moved.1 then
          .S_OK (tryPositions charIsSigned call.last sought (szText.length + 1)
            count ⟨startIndex, moved.2.1, moved.2.2⟩)
        else .S_OK (-1)

/-- `IndexOf`; a text that is null is empty. -/
def IndexOf (charIsSigned : Bool) (call : IndexOfCall) : CallResult Int :=
  match call.argument.sought with
  | none => .failed .CLR_E_NULL_REFERENCE
  | some sought =>
      let szText := call.szText.getD []
      match sought.searchLen szText,
        (inputAt 0).CountNumberOfCharacters (szText.length + 1)
          (callMemory szText sought) (-1) with
      | some searchLen, some inputLen =>
          searchFrom charIsSigned call szText sought searchLen inputLen
      | _, _ => .outside

end Text

end NanoClr
