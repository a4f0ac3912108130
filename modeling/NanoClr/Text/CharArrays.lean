import NanoClr.Arrays.ArrayElements
import NanoClr.Text.Utf8RoundTrip
import NanoClr.Text.CountCharacters
import Mathlib.Data.List.TakeWhile

/-!
# Strings and arrays of characters

A string has a text of its own, in UTF-8 and with a zero at the end.  The
methods of strings convert it to an array of characters, or characters to a new
string.
-/

namespace NanoClr

namespace Text

open Arrays CLR_RT_UnicodeHelper

/-- `CountNumberOfBytes` goes over at most `fuel` characters. -/
def countBytes (utf16 : Nat → UInt16) :
    Nat → Nat → Int → Int → Option Int
  | 0, _, _, _ => none
  | fuel + 1, pSrc, max, num =>
      let ch := (utf16 pSrc).toUInt32
      if ch = 0 then
        some num
      else if max = 0 then
        some num
      else if ch < 0x0080 then
        countBytes utf16 fuel (pSrc + 1) (max - 1) (num + 1)
      else if ch < 0x0800 then
        countBytes utf16 fuel (pSrc + 1) (max - 1) (num + 2)
      else if LOW_SURROGATE_START ≤ ch ∧ ch ≤ LOW_SURROGATE_END then
        some (-1)
      else if HIGH_SURROGATE_START ≤ ch ∧ ch ≤ HIGH_SURROGATE_END then
        let ch := (utf16 (pSrc + 1)).toUInt32
        if LOW_SURROGATE_START ≤ ch ∧ ch ≤ LOW_SURROGATE_END then
          countBytes utf16 fuel (pSrc + 2) (max - 2) (num + 4)
        else
          some (-1)
      else
        countBytes utf16 fuel (pSrc + 1) (max - 1) (num + 3)

/-- The heap as strings see it: whether it has an array of characters, an array
of references or a string of some length, what a new string holds at first, and
what lies behind an array. -/
structure StringHeap where
  array : Int → Bool
  references : Int → Bool
  string : Int → Bool
  fresh : Nat → UInt8
  behind : Nat → UInt16

/-- The memory of a text and its zero. -/
def textOf (text : List UInt8) : Nat → UInt8 :=
  fun address => text.getD address 0

/-- The memory of an array and what lies behind it. -/
def StringHeap.arrayMemory (heap : StringHeap) (array : List UInt16) :
    Nat → UInt16 :=
  fun address => array.getD address (heap.behind address)

/-- The text of a string is what stands before its zero. -/
def readText (utf8 : Nat → UInt8) (length : Nat) : List UInt8 :=
  (cellsAt utf8 0 length).takeWhile (· ≠ 0)

/-- `CreateInstance` of a string of some characters in UTF-16. -/
def CreateInstance (heap : StringHeap) (szText : Nat → UInt16) (length : Int) :
    CallResult (List UInt8) :=
  match countBytes szText (length.toNat + 1) 0 length 0 with
  | none => .outside
  | some lengthInBytes =>
      if heap.string lengthInBytes then
        let uh : CLR_RT_UnicodeHelper :=
          { m_inputUTF8 := 0
            m_inputUTF16 := 0
            m_outputUTF8 := 0
            m_outputUTF8_size := lengthInBytes + 1
            m_outputUTF16 := 0
            m_outputUTF16_size := 0 }
        let converted := uh.ConvertToUTF8 ⟨heap.fresh, szText⟩ length false
        .S_OK (readText converted.2.1.utf8 lengthInBytes.toNat)
      else
        .failed .CLR_E_OUT_OF_MEMORY

/-- The sums are `int`s. -/
def CheckRange (index length numOfElements : Int) : Bool :=
  if length < 0 then false
  else if index < 0 ∨ numOfElements < index then false
  else if index + length < 0 ∨ numOfElements < index + length then false
  else true

/-- `ConvertToCharArray`: the characters of a part of the string, after the
whole string was counted. -/
def ConvertToCharArray (heap : StringHeap) (szText : Option (List UInt8))
    (startIndex length : Int) : CallResult (List UInt16) :=
  match szText with
  | none => .failed .CLR_E_NULL_REFERENCE
  | some szText =>
      let memory : TextMemory := ⟨textOf szText, fun _ => 0⟩
      let uh : CLR_RT_UnicodeHelper := helperAtStart 0
      match uh.CountNumberOfCharacters (szText.length + 1) memory (-1) with
      | none => .outside
      | some totLength =>
          if totLength < 0 then
            .failed .CLR_E_WRONG_TYPE
          else
            let length := if length = -1 then totLength else length
            if CheckRange startIndex length totLength = false then
              .failed .CLR_E_OUT_OF_RANGE
            else if heap.array length = false then
              .failed .CLR_E_OUT_OF_MEMORY
            else
              let uh := { uh with m_outputUTF16_size := length }
              let moved := uh.ConvertFromUTF8 memory startIndex true (-1)
              let read := moved.2.2.ConvertFromUTF8 moved.2.1 length false (-1)
              .S_OK (cellsAt read.2.1.utf16 0 length.toNat)

/-! ## Strings of characters of the basic multilingual plane -/

/-- A string of such characters; none is zero, which ends a string. -/
structure BmpString where
  characters : List Char
  notZero : ∀ character ∈ characters, character.toNat ≠ 0
  inPlane : ∀ character ∈ characters, character.toNat < 0x10000

/-- The unit of a character. -/
def unitOf (character : Char) : UInt16 :=
  UInt16.ofNat character.toNat

section Characters

variable {characters : List Char}

theorem utf16Of_eq_map
    (inPlane : ∀ character ∈ characters, character.toNat < 0x10000) :
    utf16Of characters = characters.map unitOf := by
  induction characters with
  | nil => rfl
  | cons character characters inductionHypothesis =>
      rw [List.forall_mem_cons] at inPlane
      rw [utf16Of, List.flatMap_cons, utf16EncodeChar_one inPlane.1, ← utf16Of,
        inductionHypothesis inPlane.2]
      rfl

theorem lowPart_good
    {value : Nat} :
    UTF8_BAD_LOWPART (UInt8.ofNat (value % 64 + 0x80)) = false := by
  have byte := toNat_ofNat_byte (show value % 64 + 0x80 < 0x100 by omega)
  have least : (0x80 : UInt8).toNat = 0x80 := rfl
  have most : (0xBF : UInt8).toNat = 0xBF := rfl
  unfold UTF8_BAD_LOWPART
  rw [Bool.or_eq_false_iff]
  constructor
  · rw [decide_eq_false_iff_not, UInt8.lt_iff_toNat_lt]
    omega
  · rw [decide_eq_false_iff_not, UInt8.lt_iff_toNat_lt]
    omega

theorem counted_utf8EncodeChar
    {character : Char}
    (notZero : character.toNat ≠ 0) :
    Counted (String.utf8EncodeChar character) := by
  have accepted := accepted_utf8EncodeChar notZero
  apply character_cases character
  · intro small
    rw [utf8EncodeChar_one small] at accepted ⊢
    exact ⟨accepted.2, by rw [accepted.1]; rfl, nofun⟩
  · intro large small
    rw [utf8EncodeChar_two large small] at accepted ⊢
    refine ⟨?_, by rw [accepted.1]; rfl, ?_⟩
    · intro isZero
      rw [isZero] at accepted
      exact absurd accepted.1 (by decide)
    · exact List.forall_mem_singleton.mpr lowPart_good
  · intro large small
    rw [utf8EncodeChar_three large small] at accepted ⊢
    refine ⟨?_, by rw [accepted]; rfl, ?_⟩
    · intro isZero
      have three : byteClass 0 = .three := isZero ▸ accepted
      exact absurd three (by decide)
    · rw [List.forall_mem_cons]
      exact ⟨lowPart_good, List.forall_mem_singleton.mpr lowPart_good⟩
  · intro large
    rw [utf8EncodeChar_four large] at accepted ⊢
    refine ⟨?_, by rw [accepted.1]; rfl, ?_⟩
    · intro isZero
      rw [isZero] at accepted
      exact absurd accepted.1 (by decide)
    · rw [List.forall_mem_cons, List.forall_mem_cons]
      exact ⟨lowPart_good, lowPart_good,
        List.forall_mem_singleton.mpr lowPart_good⟩

/-- The bytes of a string are those of one sequence of characters. -/
theorem counted_unique
    {left right : List (List UInt8)}
    (allLeft : ∀ character ∈ left, Counted character)
    (allRight : ∀ character ∈ right, Counted character)
    (same : left.flatten = right.flatten) :
    left = right := by
  induction left generalizing right with
  | nil =>
      cases right with
      | nil => rfl
      | cons first right =>
          cases first with
          | nil => exact absurd (allRight [] List.mem_cons_self) id
          | cons ch low => exact absurd same nofun
  | cons first left inductionHypothesis =>
      rw [List.forall_mem_cons] at allLeft
      cases first with
      | nil => exact absurd allLeft.1 id
      | cons ch low =>
          cases right with
          | nil => exact absurd same nofun
          | cons second right =>
              rw [List.forall_mem_cons] at allRight
              cases second with
              | nil => exact absurd allRight.1 id
              | cons ch' low' =>
                  rw [List.flatten_cons, List.flatten_cons, List.cons_append,
                    List.cons_append, List.cons.injEq] at same
                  obtain ⟨rfl, same⟩ := same
                  have lengths :=
                    allLeft.1.2.1.symm.trans allRight.1.2.1
                  obtain ⟨rfl, sameRest⟩ :=
                    List.append_inj same (Option.some.inj lengths)
                  rw [inductionHypothesis allLeft.2 allRight.2 sameRest]

theorem utf8Of_notZero
    (notZero : ∀ character ∈ characters, character.toNat ≠ 0) :
    ∀ byte ∈ utf8Of characters, byte ≠ 0 := by
  intro byte member
  obtain ⟨character, inside, isByte⟩ := List.mem_flatMap.mp member
  have counted := counted_utf8EncodeChar (notZero character inside)
  cases bytes : String.utf8EncodeChar character with
  | nil =>
      rw [bytes] at isByte
      cases isByte
  | cons ch low =>
      rw [bytes] at isByte counted
      rcases List.mem_cons.mp isByte with rfl | isLow
      · exact counted.1
      · rintro rfl
        exact absurd (counted.2.2 0 isLow) (by decide)

theorem flatten_utf8 :
    (characters.map String.utf8EncodeChar).flatten = utf8Of characters := by
  rw [utf8Of, List.flatMap_def]

theorem count_utf8Of
    {memory : TextMemory}
    {helper : CLR_RT_UnicodeHelper}
    {fuel : Nat}
    (notZero : ∀ character ∈ characters, character.toNat ≠ 0)
    (held : Holds memory.utf8 helper.m_inputUTF8 (utf8Of characters ++ [0]))
    (enough : (utf8Of characters).length < fuel) :
    helper.CountNumberOfCharacters fuel memory (-1) =
      some ((utf16Of characters).length : Int) := by
  have allCounted : ∀ bytes ∈ characters.map String.utf8EncodeChar,
      Counted bytes := by
    intro bytes member
    obtain ⟨character, inside, rfl⟩ := List.mem_map.mp member
    exact counted_utf8EncodeChar (notZero character inside)
  have result := countNumberOfCharacters_result
    ⟨utf8Of_notZero notZero, held⟩ enough
  generalize helper.CountNumberOfCharacters fuel memory (-1) = value at result ⊢
  cases result with
  | illegal notLegal =>
      exact absurd ⟨_, allCounted, flatten_utf8⟩ notLegal
  | counted others all flatten =>
      have same := counted_unique all allCounted (flatten.trans
        flatten_utf8.symm)
      rw [same, ← convertedUnits, convertedUnits_length, Int.zero_add]

theorem advance_convert_done
    {utf8 : Nat → UInt8}
    {state : FromUTF8}
    {bytes : Nat}
    {units : List UInt16}
    (chars : state.iMaxChars = units.length) :
    (state.advance false bytes units).convert utf8 false =
      .ok (state.advance false bytes units) := by
  apply FromUTF8.convert_done
  rw [FromUTF8.iMaxChars_advance, chars]
  omega

theorem advance_terminate_full
    {state : FromUTF8}
    {bytes : Nat}
    {units : List UInt16}
    (size : state.outputUTF16_size = units.length) :
    (state.advance false bytes units).terminate false =
      .error (state.advance false bytes units) := by
  unfold FromUTF8.terminate
  rw [if_neg Bool.false_ne_true, if_pos]
  change state.outputUTF16_size - units.length < 1
  rw [size, Int.sub_self]
  exact Int.one_pos

/-- An array with room for the units and none for a zero. -/
theorem convertFromUTF8_exactly
    {memory : TextMemory}
    {helper : CLR_RT_UnicodeHelper}
    (notZero : ∀ character ∈ characters, character.toNat ≠ 0)
    (inPlane : ∀ character ∈ characters, character.toNat < 0x10000)
    (held : Holds memory.utf8 helper.m_inputUTF8 (utf8Of characters ++ [0]))
    (size : helper.m_outputUTF16_size = (utf16Of characters).length) :
    Holds (helper.ConvertFromUTF8 memory (utf16Of characters).length false
        (-1)).2.1.utf16 helper.m_outputUTF16 (utf16Of characters) := by
  have accepted := accepted_characters notZero
  have isUnits : unitsOfAll (characters.map String.utf8EncodeChar) =
      utf16Of characters := convertedUnits_iff.mpr inPlane
  have most := FromUTF8.flatten_length_le accepted
  rw [isUnits] at most
  rw [holds_append] at held
  have run : (helper.fromUTF8 memory (utf16Of characters).length
      (-1)).convert memory.utf8 false = _ :=
    FromUTF8.convert_characters accepted (by rw [flatten_utf8]; exact held.1)
      (Or.inr (by rw [isUnits]; exact Int.le_of_eq size.symm))
      (by rw [isUnits]; exact Int.le_refl _)
      (by
        unfold fromUTF8
        dsimp only
        rw [if_pos rfl]
        omega)
  rw [isUnits, advance_convert_done rfl] at run
  rw [ConvertFromUTF8, run]
  dsimp only
  rw [advance_terminate_full size]
  exact holds_writeCells

/-- Nothing is moved over. -/
theorem convertFromUTF8_zero
    {memory : TextMemory}
    {helper : CLR_RT_UnicodeHelper} :
    helper.ConvertFromUTF8 memory 0 true (-1) = (true, memory, helper) := by
  rw [ConvertFromUTF8, FromUTF8.convert_done fun inside =>
    Int.lt_irrefl 0 inside.1]
  rfl

theorem holds_textOf (text : List UInt8) :
    Holds (textOf text) 0 (text ++ [0]) := by
  suffices shifted : ∀ (rest : List UInt8) (memory : Nat → UInt8)
      (address : Nat),
      (∀ place, memory (address + place) = rest.getD place 0) →
        Holds memory address (rest ++ [0]) from
    shifted text (textOf text) 0 fun place => by rw [Nat.zero_add]; rfl
  intro rest
  induction rest with
  | nil =>
      intro memory address held
      rw [List.nil_append, holds_cons]
      exact ⟨held 0, holds_nil⟩
  | cons byte rest inductionHypothesis =>
      intro memory address held
      rw [List.cons_append, holds_cons]
      refine ⟨held 0, inductionHypothesis memory (address + 1) fun place => ?_⟩
      rw [Nat.add_assoc, Nat.add_comm 1, held]
      rfl

/-- The units of a character of the plane are those of the number of its
bytes. -/
theorem countBytes_utf16Of
    {utf16 : Nat → UInt16}
    {fuel pSrc : Nat}
    {max : Int}
    (num : Int)
    (notZero : ∀ character ∈ characters, character.toNat ≠ 0)
    (inPlane : ∀ character ∈ characters, character.toNat < 0x10000)
    (held : Holds utf16 pSrc (utf16Of characters))
    (isMax : max = (utf16Of characters).length)
    (enough : (utf16Of characters).length < fuel) :
    countBytes utf16 fuel pSrc max num =
      some (num + (utf8Of characters).length) := by
  induction characters generalizing fuel pSrc max num with
  | nil =>
      cases fuel with
      | zero => exact absurd enough (Nat.not_lt_zero _)
      | succ fuel =>
          have isZero : max = 0 := isMax
          rw [countBytes]
          dsimp only
          rw [if_pos isZero, ite_self]
          exact congrArg some (Int.add_zero num).symm
  | cons character characters inductionHypothesis =>
      rw [List.forall_mem_cons] at notZero inPlane
      have isUnits : utf16Of (character :: characters) =
          unitOf character :: utf16Of characters := by
        rw [utf16Of, List.flatMap_cons, utf16EncodeChar_one inPlane.1]
        rfl
      rw [isUnits, List.length_cons] at isMax enough
      rw [isUnits, holds_cons] at held
      have code := unit_toNat held.1 inPlane.1
      have notSurrogate := character_notSurrogate character
      have plane := inPlane.1
      have bytes : (utf8Of (character :: characters)).length =
          (String.utf8EncodeChar character).length +
            (utf8Of characters).length := by
        rw [utf8Of, List.flatMap_cons, List.length_append, ← utf8Of]
      rw [bytes]
      cases fuel with
      | zero => exact absurd enough (Nat.not_lt_zero _)
      | succ fuel =>
          have rest (more : Int) :
              countBytes utf16 fuel (pSrc + 1) (max - 1) more =
                some (more + (utf8Of characters).length) :=
            inductionHypothesis more notZero.2 inPlane.2 held.2 (by omega)
              (by omega)
          have highStart : HIGH_SURROGATE_START.toNat = 0xD800 := rfl
          have highEnd : HIGH_SURROGATE_END.toNat = 0xDBFF := rfl
          have lowStart : LOW_SURROGATE_START.toNat = 0xDC00 := rfl
          have lowEnd : LOW_SURROGATE_END.toNat = 0xDFFF := rfl
          rw [countBytes]
          simp only [UInt32.lt_iff_toNat_lt, UInt32.le_iff_toNat_le, highStart,
            highEnd, lowStart, lowEnd, UInt32.reduceToNat, ← UInt32.toNat_inj,
            code]
          rw [if_neg notZero.1, if_neg (by omega)]
          apply character_cases character
          · intro small
            rw [if_pos small, rest, utf8EncodeChar_one small]
            exact congrArg some (by rw [List.length_singleton]; omega)
          · intro large small
            rw [if_neg (by omega), if_pos small, rest,
              utf8EncodeChar_two large small]
            exact congrArg some (by
              rw [List.length_cons, List.length_singleton]
              omega)
          · intro large small
            rw [if_neg (by omega), if_neg (by omega), if_neg (by omega),
              if_neg (by omega), rest, utf8EncodeChar_three large small]
            exact congrArg some (by
              rw [List.length_cons, List.length_cons, List.length_singleton]
              omega)
          · intro large
            omega

theorem readText_utf8Of
    {utf8 : Nat → UInt8}
    (notZero : ∀ character ∈ characters, character.toNat ≠ 0)
    (held : Holds utf8 0 (utf8Of characters ++ [0])) :
    readText utf8 (utf8Of characters).length = utf8Of characters := by
  rw [holds_append] at held
  have isText : cellsAt utf8 0 (utf8Of characters).length =
      utf8Of characters := held.1
  rw [readText, isText, List.takeWhile_eq_self_iff]
  intro byte member
  exact decide_eq_true (utf8Of_notZero notZero byte member)

/-- A new string has the text of the characters it is made of. -/
theorem createInstance_utf16Of
    {heap : StringHeap}
    {szText : Nat → UInt16}
    (notZero : ∀ character ∈ characters, character.toNat ≠ 0)
    (inPlane : ∀ character ∈ characters, character.toNat < 0x10000)
    (held : Holds szText 0 (utf16Of characters))
    (supplied : ∀ length, heap.string length) :
    CreateInstance heap szText (utf16Of characters).length =
      .S_OK (utf8Of characters) := by
  have count := countBytes_utf16Of 0 notZero inPlane held rfl
    (Nat.lt_succ_self _)
  rw [Int.zero_add] at count
  unfold CreateInstance
  rw [Int.toNat_natCast, count]
  dsimp only
  rw [if_pos (supplied _)]
  have converted := @convertToUTF8_utf16Of ⟨heap.fresh, szText⟩ characters
    ⟨0, 0, 0, (utf8Of characters).length + 1, 0, 0⟩ notZero held (Int.lt_succ _)
  rw [Int.toNat_natCast]
  exact congrArg CallResult.S_OK (readText_utf8Of notZero converted.2)

/-- The array of all the characters of a string. -/
theorem convertToCharArray_all
    {heap : StringHeap}
    (notZero : ∀ character ∈ characters, character.toNat ≠ 0)
    (inPlane : ∀ character ∈ characters, character.toNat < 0x10000)
    (supplied : ∀ length, heap.array length) :
    ConvertToCharArray heap (some (utf8Of characters)) 0 (-1) =
      .S_OK (utf16Of characters) := by
  have held : Holds (textOf (utf8Of characters)) 0
      (utf8Of characters ++ [0]) := holds_textOf _
  have count := @count_utf8Of characters
    ⟨textOf (utf8Of characters), fun _ => 0⟩ (helperAtStart 0) _ notZero held
    (Nat.lt_succ_self _)
  have inRange : CheckRange 0 ((utf16Of characters).length : Int)
      ((utf16Of characters).length : Int) = true := by
    unfold CheckRange
    rw [if_neg (by omega), if_neg (by omega), if_neg (by omega)]
  unfold ConvertToCharArray
  dsimp only
  rw [count]
  dsimp only
  rw [if_neg (by omega), if_pos rfl, inRange, supplied,
    if_neg Bool.noConfusion, if_neg Bool.noConfusion, convertFromUTF8_zero]
  dsimp only
  rw [Int.toNat_natCast]
  exact congrArg CallResult.S_OK (@convertFromUTF8_exactly characters _
    { helperAtStart 0 with
      m_outputUTF16_size := ((utf16Of characters).length : Int) }
    notZero inPlane held rfl)

end Characters

end Text

end NanoClr
