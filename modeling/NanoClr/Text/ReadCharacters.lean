import NanoClr.Text.IndexOf
import NanoClr.Text.DecodeChunks
import NanoClr.Text.MoveBackward

/-!
# Reading character by character

What one step of the helper does to a cursor in a string: it reads a character
of the basic multilingual plane and stops before any other, it moves forward
over characters, and back over bytes.
-/

namespace NanoClr

namespace Text

theorem utf8Of_singleton (character : Char) :
    utf8Of [character] = String.utf8EncodeChar character :=
  List.flatMap_singleton _ _

namespace CLR_RT_UnicodeHelper

section Cursor

variable
  {memory : TextMemory}
  {utf8StringStart : Nat}
  {before after : List Char}
  {character : Char}
  {helper : CLR_RT_UnicodeHelper}

theorem AtCursor.heldAfter
    (at_ : AtCursor memory utf8StringStart before after helper) :
    Holds memory.utf8 helper.m_inputUTF8 (utf8Of after ++ [0]) := by
  have held := at_.held
  rw [utf8Of_append, List.append_assoc, holds_append] at held
  rw [at_.cursor]
  exact held.2

/-- The cursor moves on when nothing else of the string changes. -/
theorem AtCursor.forward
    {middle : List Char}
    {memory' : TextMemory}
    {helper' : CLR_RT_UnicodeHelper}
    (at_ : AtCursor memory utf8StringStart before (middle ++ after) helper)
    (same : memory'.utf8 = memory.utf8)
    (moved : helper'.m_inputUTF8 =
      helper.m_inputUTF8 + (utf8Of middle).length) :
    AtCursor memory' utf8StringStart (before ++ middle) after helper' := by
  refine ⟨?_, ?_, ?_⟩
  · rw [List.append_assoc]
    exact at_.notZero
  · rw [List.append_assoc, same]
    exact at_.held
  · rw [moved, at_.cursor, utf8Of_append, List.length_append, Nat.add_assoc]

theorem AtCursor.withMemory
    {memory' : TextMemory}
    (at_ : AtCursor memory utf8StringStart before after helper)
    (same : memory'.utf8 = memory.utf8) :
    AtCursor memory' utf8StringStart before after helper :=
  ⟨at_.notZero, same ▸ at_.held, at_.cursor⟩

/-- A move over characters. -/
theorem AtCursor.move
    {middle : List Char}
    (at_ : AtCursor memory utf8StringStart before (middle ++ after) helper) :
    helper.ConvertFromUTF8 memory (utf16Of middle).length true (-1) =
      (true, memory,
        { helper with
          m_inputUTF8 := helper.m_inputUTF8 + (utf8Of middle).length }) := by
  have notZero : ∀ character ∈ middle, character.toNat ≠ 0 := by
    intro character member
    exact at_.notZero character (List.mem_append_right before
      (List.mem_append_left after member))
  have accepted := accepted_characters notZero
  have most := FromUTF8.flatten_length_le accepted
  have length := convertedUnits_length middle
  have held := at_.heldAfter
  rw [utf8Of_append, List.append_assoc, holds_append] at held
  have run : (helper.fromUTF8 memory (utf16Of middle).length (-1)).convert
      memory.utf8 true = _ :=
    FromUTF8.convert_characters accepted
      (by rw [flatten_utf8]; exact held.1) (Or.inl rfl)
      (by
        rw [← convertedUnits, length]
        exact Int.le_refl _)
      (by
        rw [fromUTF8_iMaxBytes, ← length, convertedUnits]
        omega)
  have done : ((helper.fromUTF8 memory (utf16Of middle).length (-1)).advance
      true (utf8Of middle).length (convertedUnits middle)).convert memory.utf8
        true = .ok _ :=
    FromUTF8.convert_done (by
      rw [FromUTF8.iMaxChars_advance, length]
      change ¬ (0 < ((utf16Of middle).length : Int) - _ ∧ _)
      omega)
  rw [flatten_utf8, ← convertedUnits, done] at run
  rw [ConvertFromUTF8, run]
  rfl

/-- The state of the helper behind a character that is read. -/
theorem AtCursor.convert_read
    (buf : Nat)
    (at_ : AtCursor memory utf8StringStart before (character :: after) helper)
    (inPlane : character.toNat < 0x10000) :
    ((readsTo buf helper).fromUTF8 memory 1 (-1)).convert memory.utf8 false =
      .ok (((readsTo buf helper).fromUTF8 memory 1 (-1)).advance false
        (String.utf8EncodeChar character).length [unitOf character]) := by
  have notZero := at_.notZero character
    (List.mem_append_right before List.mem_cons_self)
  have accepted : ∀ bytes ∈ [String.utf8EncodeChar character],
      Accepted bytes :=
    List.forall_mem_singleton.mpr (accepted_utf8EncodeChar notZero)
  have units : unitsOfAll [String.utf8EncodeChar character] =
      [unitOf character] := by
    rw [unitsOfAll, List.flatMap_singleton,
      unitsOf_utf8EncodeChar_small inPlane, utf16EncodeChar_one inPlane]
    rfl
  have bytes : [String.utf8EncodeChar character].flatten =
      String.utf8EncodeChar character := List.flatten_singleton
  have most := FromUTF8.flatten_length_le accepted
  have held := at_.heldAfter
  rw [utf8Of_cons, List.append_assoc, holds_append] at held
  have run : ((readsTo buf helper).fromUTF8 memory 1 (-1)).convert memory.utf8
      false = _ :=
    FromUTF8.convert_characters accepted (by rw [bytes]; exact held.1)
      (Or.inr (by rw [units]; exact Int.le.intro 1 rfl))
      (by rw [units]; exact Int.le_refl 1)
      (by
        rw [fromUTF8_iMaxBytes]
        rw [units] at most
        exact Int.ofNat_le.mpr most)
  rw [run, units, bytes]
  exact advance_convert_done rfl

theorem terminate_false
    {state : FromUTF8}
    (size : 1 ≤ state.outputUTF16_size) :
    state.terminate false = .ok
      { state with
        utf16 := Function.update state.utf16 state.outputUTF16 0 } := by
  rw [FromUTF8.terminate, if_neg Bool.false_ne_true,
    if_neg (Int.not_lt.mpr size)]

/-- The memory and the helper behind a character that is read. -/
def afterRead
    (buf : Nat)
    (character : Char)
    (memory : TextMemory)
    (helper : CLR_RT_UnicodeHelper) : TextMemory × CLR_RT_UnicodeHelper :=
  ({ memory with
      utf16 := Function.update
        (Function.update memory.utf16 buf (unitOf character)) (buf + 1) 0 },
    { helper with
      m_inputUTF8 := helper.m_inputUTF8 +
        (String.utf8EncodeChar character).length
      m_outputUTF16 := buf + 1
      m_outputUTF16_size := 1 })

theorem AtCursor.read_eq
    (buf : Nat)
    (at_ : AtCursor memory utf8StringStart before (character :: after) helper)
    (inPlane : character.toNat < 0x10000) :
    readTo buf memory helper =
      (true, afterRead buf character memory helper) := by
  have run := at_.convert_read buf inPlane
  rw [readTo, ConvertFromUTF8, run]
  dsimp only
  rw [terminate_false (Int.le_refl 1)]
  rfl

/-- A character that is read. -/
theorem AtCursor.read
    (buf : Nat)
    (at_ : AtCursor memory utf8StringStart before (character :: after) helper)
    (inPlane : character.toNat < 0x10000) :
    ∃ memory' helper',
      readTo buf memory helper = (true, memory', helper') ∧
        memory'.utf16 buf = unitOf character ∧
        (∀ place, place < buf ∨ buf + 2 ≤ place →
          memory'.utf16 place = memory.utf16 place) ∧
        memory'.utf8 = memory.utf8 ∧
        AtCursor memory' utf8StringStart (before ++ [character]) after
          helper' := by
  refine ⟨(afterRead buf character memory helper).1,
    (afterRead buf character memory helper).2, at_.read_eq buf inPlane, ?_, ?_,
    rfl, ?_⟩
  · change Function.update _ (buf + 1) 0 buf = _
    rw [Function.update_of_ne (by omega), Function.update_self]
  · intro place outside
    change Function.update _ (buf + 1) 0 place = _
    rw [Function.update_of_ne (by omega), Function.update_of_ne (by omega)]
  · have first : AtCursor memory utf8StringStart before
        ([character] ++ after) helper := at_
    refine first.forward ?_ ?_
    · rfl
    rw [utf8Of_singleton]
    rfl

/-- The end and a character outside the plane are not read. -/
theorem AtCursor.read_fails
    (buf : Nat)
    (at_ : AtCursor memory utf8StringStart before after helper)
    (stops : ∀ character ∈ after.head?, 0x10000 ≤ character.toNat) :
    (readTo buf memory helper).1 = false := by
  have held := at_.heldAfter
  cases after with
  | nil =>
      have zero : memory.utf8 helper.m_inputUTF8 = 0 := (holds_cons.mp held).1
      have pass : ((readsTo buf helper).fromUTF8 memory 1 (-1)).convertCharacter
          memory.utf8 false = .error _ := convertCharacter_zero zero
      rw [readTo, ConvertFromUTF8, FromUTF8.convert_exit _ pass]
      exact ⟨Int.one_pos, by rw [fromUTF8_iMaxBytes]; decide⟩
  | cons character after =>
      have large := stops character rfl
      have notZero := at_.notZero character
        (List.mem_append_right before List.mem_cons_self)
      rw [utf8Of_cons, List.append_assoc, holds_append] at held
      have pass : ((readsTo buf helper).fromUTF8 memory 1 (-1)).convertCharacter
          memory.utf8 false =
            .error ((readsTo buf helper).fromUTF8 memory 1 (-1)) := by
        rw [FromUTF8.convertCharacter_accepted (accepted_utf8EncodeChar notZero)
          held.1, utf8EncodeChar_four large]
        apply FromUTF8.take_short
        rw [fromUTF8_iMaxBytes]
        exact Int.lt.intro rfl
      rw [readTo, ConvertFromUTF8, FromUTF8.convert_exit _ pass]
      exact ⟨Int.one_pos, by rw [fromUTF8_iMaxBytes]; decide⟩

/-- A move back over more bytes than there are ends at the start. -/
theorem moveBackward_fails
    {charIsSigned : Bool}
    {utf8 : Nat → UInt8}
    {n distance : Nat}
    (few : distance < n) :
    (moveBackward charIsSigned utf8 utf8StringStart distance n).1 = false := by
  induction distance generalizing n with
  | zero => rfl
  | succ distance inductionHypothesis =>
      rw [moveBackward, if_pos (countsAsStart_eq_true _ _), if_neg (by omega),
        show (n : Int) - 1 = (n - 1 : Nat) by omega]
      exact inductionHypothesis (by omega)

/-- There is nothing before the start of a string. -/
theorem back_fails
    {n : Nat}
    (charIsSigned : Bool)
    (few : helper.m_inputUTF8 < n) :
    (helper.MoveBackwardInUTF8 charIsSigned memory 0 n).1 = false := by
  unfold MoveBackwardInUTF8
  split
  case isTrue => rfl
  case isFalse => exact moveBackward_fails few

/-- A move back over bytes. -/
theorem back_eq
    {n : Nat}
    (charIsSigned : Bool)
    (some : 0 < n)
    (inside : n ≤ helper.m_inputUTF8) :
    helper.MoveBackwardInUTF8 charIsSigned memory 0 n =
      (true, { helper with m_inputUTF8 := helper.m_inputUTF8 - n }) := by
  rw [MoveBackwardInUTF8, if_neg (by omega)]
  dsimp only
  rw [Nat.sub_zero, moveBackward_eq some inside, Nat.zero_add]

/-- The cursor stands where it was before a character. -/
theorem AtCursor.backward
    {middle : List Char}
    {helper' : CLR_RT_UnicodeHelper}
    (at_ : AtCursor memory utf8StringStart (before ++ middle) after helper)
    (moved : helper'.m_inputUTF8 + (utf8Of middle).length =
      helper.m_inputUTF8) :
    AtCursor memory utf8StringStart before (middle ++ after) helper' := by
  refine ⟨?_, ?_, ?_⟩
  · rw [← List.append_assoc]
    exact at_.notZero
  · rw [← List.append_assoc]
    exact at_.held
  · have cursor := at_.cursor
    rw [utf8Of_append, List.length_append] at cursor
    omega

end Cursor

end CLR_RT_UnicodeHelper

end Text

end NanoClr
