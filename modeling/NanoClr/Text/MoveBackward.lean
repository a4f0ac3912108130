import NanoClr.Text.Utf8RoundTrip
import Mathlib.Data.List.Induction

/-!
# Moving backward

`MoveBackwardInUTF8` takes every byte for the start of a character. It undoes a
move forward over characters of one byte, and no other.
-/

namespace NanoClr

namespace Text

namespace FromUTF8

variable
  {utf8 : Nat → UInt8}
  {state final : FromUTF8}

/-- A character with no more bytes than units is a single byte. -/
theorem accepted_length_cases
    {character : List UInt8}
    (accepted : Accepted character) :
    (∃ ch, character = [ch] ∧ ch.toNat < 0x80) ∨
      (unitsOf character).length < character.length := by
  match character, accepted with
  | [ch], accepted =>
      exact Or.inl ⟨ch, rfl, byteClass_single_iff.mp accepted.1⟩
  | [_, _], _ => exact Or.inr (Nat.le_of_ble_eq_true rfl)
  | [_, _, _], _ => exact Or.inr (Nat.le_of_ble_eq_true rfl)
  | [_, _, _, _], _ => exact Or.inr (Nat.le_of_ble_eq_true rfl)

/-- A move over so many units passes at least as many bytes. -/
theorem min_le_of_convert
    (run : state.convert utf8 true = .ok final) :
    min state.iMaxChars state.iMaxBytes ≤
      (final.inputUTF8 : Int) - state.inputUTF8 := by
  induction state using FromUTF8.convert.induct utf8 true with
  | case1 state inside exited stopped =>
      rw [convert_exit inside stopped] at run
      cases run
  | case2 state inside next passed inductionHypothesis =>
      have ⟨character, accepted, _, after⟩ := convertCharacter_ok passed
      have rest := inductionHypothesis ((convert_step inside passed).symm.trans run)
      rw [after, iMaxChars_advance, iMaxBytes_advance, inputUTF8_advance] at rest
      rcases accepted_length_cases accepted with ⟨ch, rfl, _⟩ | less
      · rw [List.length_singleton, unitsOf, List.length_singleton] at rest
        omega
      · omega
  | case3 state outside =>
      rw [convert_done outside] at run
      cases run
      omega

/-- A move that passes no more bytes than units has only met single bytes. -/
theorem single_of_convert
    (run : state.convert utf8 true = .ok final)
    (reached : (final.inputUTF8 : Int) = state.inputUTF8 + state.iMaxChars)
    (bytes : state.iMaxChars < state.iMaxBytes ∨ state.iMaxChars = 0) :
    ∀ place, state.inputUTF8 ≤ place → place < final.inputUTF8 →
      (utf8 place).toNat < 0x80 := by
  induction state using FromUTF8.convert.induct utf8 true with
  | case1 state inside exited stopped =>
      rw [convert_exit inside stopped] at run
      cases run
  | case2 state inside next passed inductionHypothesis =>
      have ⟨character, accepted, held, after⟩ := convertCharacter_ok passed
      have run' := (convert_step inside passed).symm.trans run
      have least := min_le_of_convert run'
      rw [after, iMaxChars_advance, iMaxBytes_advance, inputUTF8_advance]
        at least
      rcases accepted_length_cases accepted with ⟨ch, rfl, single⟩ | less
      · intro place from_ below
        rw [holds_cons] at held
        by_cases first : place = state.inputUTF8
        · rw [first, held.1]
          exact single
        · apply inductionHypothesis run' _ _ place _ below
          · rw [after, iMaxChars_advance, inputUTF8_advance, reached,
              List.length_singleton, unitsOf, List.length_singleton]
            omega
          · rw [after, iMaxChars_advance, iMaxBytes_advance,
              List.length_singleton, unitsOf, List.length_singleton]
            omega
          · rw [after, inputUTF8_advance, List.length_singleton]
            omega
      · omega
  | case3 state outside =>
      rw [convert_done outside] at run
      cases run
      intro place from_ below
      omega

end FromUTF8

/-! ## The last characters of a string -/

section LastCharacters

variable {character : Char} {characters : List Char}

/-- All bytes of a character outside ASCII are large. -/
theorem utf8EncodeChar_large
    (large : 0x80 ≤ character.toNat) :
    ∀ byte ∈ String.utf8EncodeChar character, 0x80 ≤ byte.toNat := by
  have bound := character_lt character
  apply character_cases character
  · intro small
    omega
  · intro _ two
    rw [utf8EncodeChar_two large two]
    simp only [List.forall_mem_cons]
    rw [toNat_ofNat_byte (by omega), toNat_ofNat_byte (by omega)]
    exact ⟨by omega, by omega, by simp⟩
  · intro some three
    rw [utf8EncodeChar_three some three]
    simp only [List.forall_mem_cons]
    rw [toNat_ofNat_byte (by omega), toNat_ofNat_byte (by omega),
      toNat_ofNat_byte (by omega)]
    exact ⟨by omega, by omega, by omega, by simp⟩
  · intro four
    rw [utf8EncodeChar_four four]
    simp only [List.forall_mem_cons]
    rw [toNat_ofNat_byte (by omega), toNat_ofNat_byte (by omega),
      toNat_ofNat_byte (by omega), toNat_ofNat_byte (by omega)]
    exact ⟨by omega, by omega, by omega, by omega, by simp⟩

theorem utf8EncodeChar_ne_nil : String.utf8EncodeChar character ≠ [] := by
  apply character_cases character
  · intro small
    rw [utf8EncodeChar_one small]
    exact List.cons_ne_nil _ _
  · intro large small
    rw [utf8EncodeChar_two large small]
    exact List.cons_ne_nil _ _
  · intro large small
    rw [utf8EncodeChar_three large small]
    exact List.cons_ne_nil _ _
  · intro large
    rw [utf8EncodeChar_four large]
    exact List.cons_ne_nil _ _

theorem utf8Of_concat :
    utf8Of (characters ++ [character]) =
      utf8Of characters ++ String.utf8EncodeChar character := by
  rw [utf8Of, List.flatMap_append, List.flatMap_singleton]
  rfl

theorem utf16Of_concat :
    utf16Of (characters ++ [character]) =
      utf16Of characters ++ utf16EncodeChar character := by
  rw [utf16Of, List.flatMap_append, List.flatMap_singleton]
  rfl

/-- The end of a sequence with one more value. -/
theorem drop_concat
    {α : Type}
    (values : List α)
    (value : α)
    (n : Nat) :
    (values ++ [value]).drop ((values ++ [value]).length - (n + 1)) =
      values.drop (values.length - n) ++ [value] := by
  rw [List.length_append, List.length_singleton, Nat.add_sub_add_right,
    List.drop_append_of_le_length (Nat.sub_le _ _)]

/-- The last bytes of a string lie in ASCII when as many characters do. -/
theorem lastBytes_iff
    {n : Nat}
    (few : n ≤ (utf16Of characters).length) :
    (∀ byte ∈ (utf8Of characters).drop ((utf8Of characters).length - n),
        byte.toNat < 0x80) ↔
      ∀ character ∈ characters.drop (characters.length - n),
        character.toNat < 0x80 := by
  induction characters using List.reverseRecOn generalizing n with
  | nil =>
      apply iff_of_true
      · simp [utf8Of]
      · simp
  | append_singleton characters character inductionHypothesis =>
      cases n with
      | zero => simp
      | succ n =>
          rw [drop_concat, List.forall_mem_append, List.forall_mem_singleton,
            utf8Of_concat]
          by_cases small : character.toNat < 0x80
          · have byte := toNat_ofNat_byte
              (show character.toNat < 0x100 by omega)
            rw [utf16Of_concat, utf16EncodeChar_one (by omega),
              List.length_append, List.length_singleton] at few
            rw [utf8EncodeChar_one small, drop_concat, List.forall_mem_append,
              List.forall_mem_singleton, byte,
              inductionHypothesis (Nat.le_of_succ_le_succ few)]
          · apply iff_of_false
            · intro all
              have some : String.utf8EncodeChar character ≠ [] :=
                utf8EncodeChar_ne_nil
              have large := utf8EncodeChar_large (Nat.not_lt.mp small) _
                (List.getLast_mem some)
              rw [← List.dropLast_concat_getLast some, ← List.append_assoc,
                drop_concat, List.forall_mem_append,
                List.forall_mem_singleton] at all
              exact Nat.not_lt.mpr large all.2
            · intro all
              exact small all.2

theorem utf8EncodeChar_ne_zero
    (notZero : character.toNat ≠ 0) :
    ∀ byte ∈ String.utf8EncodeChar character, byte ≠ 0 := by
  intro byte member zero
  by_cases small : character.toNat < 0x80
  · have value := toNat_ofNat_byte (show character.toNat < 0x100 by omega)
    rw [utf8EncodeChar_one small, List.mem_singleton] at member
    rw [← member, zero] at value
    exact notZero value.symm
  · have large := utf8EncodeChar_large (Nat.not_lt.mp small) byte member
    rw [zero] at large
    exact absurd large (by decide)

theorem utf8Of_ne_zero
    (notZero : ∀ character ∈ characters, character.toNat ≠ 0) :
    ∀ byte ∈ utf8Of characters, byte ≠ 0 := by
  intro byte member
  have ⟨character, inside, encoded⟩ := List.mem_flatMap.mp member
  exact utf8EncodeChar_ne_zero (notZero character inside) byte encoded

/-- A string has at least as many bytes as units. -/
theorem utf16Of_length_le (characters : List Char) :
    (utf16Of characters).length ≤ (utf8Of characters).length := by
  induction characters with
  | nil => exact Nat.le_refl 0
  | cons character characters inductionHypothesis =>
      have first : (utf16EncodeChar character).length ≤
          (String.utf8EncodeChar character).length := by
        have some : 0 < (String.utf8EncodeChar character).length :=
          List.length_pos_iff.mpr utf8EncodeChar_ne_nil
        by_cases large : 0x10000 ≤ character.toNat
        · rw [utf16EncodeChar_two large, utf8EncodeChar_four large]
          exact Nat.le_of_ble_eq_true rfl
        · rw [utf16EncodeChar_one (Nat.not_le.mp large)]
          exact some
      rw [utf16Of, utf8Of, List.flatMap_cons, List.flatMap_cons,
        List.length_append, List.length_append]
      exact Nat.add_le_add first inductionHypothesis

end LastCharacters

namespace CLR_RT_UnicodeHelper

variable
  {charIsSigned : Bool}
  {memory : TextMemory}
  {helper : CLR_RT_UnicodeHelper}

/-- Both masks are hexadecimal, and every byte passes for a start byte. -/
theorem countsAsStart_eq_true (charIsSigned : Bool) (current : UInt8) :
    countsAsStart charIsSigned current = true := by
  have table : ∀ (charIsSigned : Bool) (value : Fin 256),
      countsAsStart charIsSigned (UInt8.ofFin value) = true := by
    decide +kernel
  exact table charIsSigned current.toFin

theorem moveBackward_eq
    {utf8 : Nat → UInt8}
    {utf8StringStart n distance : Nat}
    (some : 0 < n)
    (inside : n ≤ distance) :
    moveBackward charIsSigned utf8 utf8StringStart distance n =
      (true, utf8StringStart + (distance - n)) := by
  induction distance generalizing n with
  | zero => omega
  | succ distance inductionHypothesis =>
      rw [moveBackward, if_pos (countsAsStart_eq_true _ _)]
      by_cases last : n = 1
      · rw [last]
        rfl
      · rw [if_neg (by omega), show (n : Int) - 1 = (n - 1 : Nat) by omega,
          inductionHypothesis (by omega) (by omega)]
        congr 2
        omega

/-- The cursor stands between two parts of a string with its zero. -/
structure AtCursor
    (memory : TextMemory)
    (utf8StringStart : Nat)
    (before after : List Char)
    (helper : CLR_RT_UnicodeHelper) : Prop where
  notZero : ∀ character ∈ before ++ after, character.toNat ≠ 0
  held : Holds memory.utf8 utf8StringStart (utf8Of (before ++ after) ++ [0])
  cursor : helper.m_inputUTF8 = utf8StringStart + (utf8Of before).length

/-- A move back, and one forward that comes to the cursor again. -/
def MovesBack
    (charIsSigned : Bool)
    (memory : TextMemory)
    (utf8StringStart n : Nat)
    (helper : CLR_RT_UnicodeHelper) : Prop :=
  let back := helper.MoveBackwardInUTF8 charIsSigned memory utf8StringStart n
  let forward := back.2.ConvertFromUTF8 memory n true (-1)
  forward.1 = true ∧ forward.2.2.m_inputUTF8 = helper.m_inputUTF8

/-- A move back is one over bytes. -/
theorem moveBackwardInUTF8_eq
    {utf8StringStart n : Nat}
    (inside : utf8StringStart + n ≤ helper.m_inputUTF8) :
    (helper.MoveBackwardInUTF8 charIsSigned memory utf8StringStart n).2 =
      { helper with m_inputUTF8 := helper.m_inputUTF8 - n } := by
  unfold MoveBackwardInUTF8
  by_cases none_ : n = 0
  · rw [if_pos (Or.inr (by omega)), none_]
    rfl
  · rw [if_neg (by omega)]
    dsimp only
    rw [moveBackward_eq (by omega) (by omega)]
    congr 1
    dsimp only
    omega

/-- What a move forward tells about the loop. -/
theorem convertFromUTF8_move_iff
    {iMaxChars iMaxBytes : Int}
    {place : Nat} :
    (helper.ConvertFromUTF8 memory iMaxChars true iMaxBytes).1 = true ∧
        (helper.ConvertFromUTF8 memory iMaxChars true
          iMaxBytes).2.2.m_inputUTF8 = place ↔
      ∃ final, (helper.fromUTF8 memory iMaxChars iMaxBytes).convert memory.utf8
        true = .ok final ∧ final.inputUTF8 = place := by
  rw [ConvertFromUTF8]
  cases run : (helper.fromUTF8 memory iMaxChars iMaxBytes).convert memory.utf8
      true with
  | error exited =>
      apply iff_of_false
      · intro moved
        exact Bool.false_ne_true moved.1
      · rintro ⟨final, ok, _⟩
        cases ok
  | ok final =>
      constructor
      · intro moved
        exact ⟨final, rfl, moved.2⟩
      · rintro ⟨final, ⟨⟩, reached⟩
        exact ⟨rfl, reached⟩

/-- Three bytes for each unit are the default. -/
theorem fromUTF8_iMaxBytes
    (memory : TextMemory)
    (iMaxChars : Int)
    (helper : CLR_RT_UnicodeHelper) :
    (helper.fromUTF8 memory iMaxChars (-1)).iMaxBytes = iMaxChars * 3 := by
  unfold fromUTF8
  dsimp only
  rw [if_pos rfl]

/-- The last bytes before the cursor. -/
theorem AtCursor.lastBytes
    {utf8StringStart n : Nat}
    {before after : List Char}
    (at_ : AtCursor memory utf8StringStart before after helper)
    (inside : n ≤ (utf8Of before).length) :
    Holds memory.utf8 (helper.m_inputUTF8 - n)
      ((utf8Of before).drop ((utf8Of before).length - n)) := by
  have held := at_.held
  have cursor := at_.cursor
  rw [utf8Of, List.flatMap_append, List.append_assoc, holds_append] at held
  have bytes : Holds memory.utf8 utf8StringStart (utf8Of before) := held.1
  rw [← List.take_append_drop ((utf8Of before).length - n) (utf8Of before),
    holds_append, List.length_take_of_le (Nat.sub_le _ _)] at bytes
  rw [show helper.m_inputUTF8 - n =
    utf8StringStart + ((utf8Of before).length - n) by omega]
  exact bytes.2

/-- The helper moves over bytes in ASCII one by one. -/
theorem convert_ascii
    {utf8 : Nat → UInt8}
    {state : FromUTF8}
    {bytes : List UInt8}
    (ascii : ∀ byte ∈ bytes, byte.toNat < 0x80 ∧ byte ≠ 0)
    (held : Holds utf8 state.inputUTF8 bytes)
    (chars : state.iMaxChars = bytes.length)
    (left : (bytes.length : Int) ≤ state.iMaxBytes) :
    ∃ final, state.convert utf8 true = .ok final ∧
      final.inputUTF8 = state.inputUTF8 + bytes.length := by
  induction bytes generalizing state with
  | nil =>
      refine ⟨state, FromUTF8.convert_done ?_, rfl⟩
      rw [chars]
      exact fun inside => Int.lt_irrefl 0 inside.1
  | cons byte bytes inductionHypothesis =>
      rw [List.forall_mem_cons] at ascii
      rw [holds_cons] at held
      rw [List.length_cons] at chars left
      have accepted : Accepted [byte] :=
        ⟨byteClass_single_iff.mpr ascii.1.1, ascii.1.2⟩
      have pass : state.convertCharacter utf8 true =
          .ok (state.advance true 1 (unitsOf [byte])) := by
        rw [FromUTF8.convertCharacter_accepted accepted
          (holds_cons.mpr ⟨held.1, holds_nil⟩)]
        exact FromUTF8.take_eq (Or.inl rfl) (by
          rw [List.length_singleton]
          omega)
      have charsLeft : (state.advance true 1 (unitsOf [byte])).iMaxChars =
          bytes.length := by
        rw [FromUTF8.iMaxChars_advance, unitsOf, List.length_singleton]
        omega
      have bytesLeft : (bytes.length : Int) ≤
          (state.advance true 1 (unitsOf [byte])).iMaxBytes := by
        rw [FromUTF8.iMaxBytes_advance]
        omega
      obtain ⟨final, run, reached⟩ :=
        inductionHypothesis ascii.2 held.2 charsLeft bytesLeft
      refine ⟨final, ?_, ?_⟩
      · rw [FromUTF8.convert_step (by omega) pass, run]
      · rw [reached, FromUTF8.inputUTF8_advance, List.length_cons]
        omega

theorem AtCursor.length_lastBytes
    {n : Nat}
    {before : List Char}
    (few : n ≤ (utf16Of before).length) :
    ((utf8Of before).drop ((utf8Of before).length - n)).length = n := by
  have inside := Nat.le_trans few (utf16Of_length_le before)
  rw [List.length_drop]
  omega

/-- Only over bytes in ASCII can the cursor be reached again. -/
theorem ascii_of_movesBack
    {utf8StringStart n : Nat}
    {before after : List Char}
    (at_ : AtCursor memory utf8StringStart before after helper)
    (few : n ≤ (utf16Of before).length)
    (back : MovesBack charIsSigned memory utf8StringStart n helper) :
    ∀ byte ∈ (utf8Of before).drop ((utf8Of before).length - n),
      byte.toNat < 0x80 := by
  have inside := Nat.le_trans few (utf16Of_length_le before)
  have cursor := at_.cursor
  rw [MovesBack, moveBackwardInUTF8_eq (by omega)] at back
  have ⟨final, run, reached⟩ := convertFromUTF8_move_iff.mp back
  have left := fromUTF8_iMaxBytes memory n
    { helper with m_inputUTF8 := helper.m_inputUTF8 - n }
  have single := FromUTF8.single_of_convert run
    (by
      show (final.inputUTF8 : Int) = (helper.m_inputUTF8 - n : Nat) + (n : Int)
      omega)
    (by
      show (n : Int) < _ ∨ (n : Int) = 0
      omega)
  rw [reached] at single
  rw [forall_mem_iff_of_holds (at_.lastBytes inside),
    AtCursor.length_lastBytes few, Nat.sub_add_cancel (by omega)]
  exact single

theorem movesBack_of_ascii
    {utf8StringStart n : Nat}
    {before after : List Char}
    (at_ : AtCursor memory utf8StringStart before after helper)
    (few : n ≤ (utf16Of before).length)
    (ascii : ∀ byte ∈ (utf8Of before).drop ((utf8Of before).length - n),
      byte.toNat < 0x80) :
    MovesBack charIsSigned memory utf8StringStart n helper := by
  have inside := Nat.le_trans few (utf16Of_length_le before)
  have cursor := at_.cursor
  have length := AtCursor.length_lastBytes few
  have notZero : ∀ byte ∈ utf8Of before, byte ≠ 0 := by
    apply utf8Of_ne_zero
    intro character member
    exact at_.notZero character (List.mem_append_left after member)
  have left := fromUTF8_iMaxBytes memory n
    { helper with m_inputUTF8 := helper.m_inputUTF8 - n }
  have ⟨final, run, reached⟩ :
      ∃ final,
        (fromUTF8 memory n (-1)
          { helper with m_inputUTF8 := helper.m_inputUTF8 - n }).convert
            memory.utf8 true = .ok final ∧
          final.inputUTF8 = helper.m_inputUTF8 - n + _ :=
    convert_ascii
      (fun byte member =>
        ⟨ascii byte member, notZero byte (List.mem_of_mem_drop member)⟩)
      (at_.lastBytes inside) (congrArg Nat.cast length.symm)
      (by rw [length]; omega)
  rw [MovesBack, moveBackwardInUTF8_eq (by omega)]
  apply convertFromUTF8_move_iff.mpr
  refine ⟨final, run, ?_⟩
  rw [reached, length]
  exact Nat.sub_add_cancel (by omega)

end CLR_RT_UnicodeHelper

open CLR_RT_UnicodeHelper

/-- A move back is undone by one forward exactly over characters in ASCII. -/
theorem moveBackward_inverts_iff
    {charIsSigned : Bool}
    {memory : TextMemory}
    {utf8StringStart n : Nat}
    {before after : List Char}
    {helper : CLR_RT_UnicodeHelper}
    (at_ : AtCursor memory utf8StringStart before after helper)
    (few : n ≤ (utf16Of before).length) :
    MovesBack charIsSigned memory utf8StringStart n helper ↔
      ∀ character ∈ before.drop (before.length - n),
        character.toNat < 0x80 := by
  rw [← lastBytes_iff few]
  constructor
  · exact ascii_of_movesBack at_ few
  · exact movesBack_of_ascii at_ few

/-- Behind two letters, over the one in ASCII. -/
theorem moveBackward_inverts_letter :
    MovesBack true (textMemory ['é', 'a', 'b']) 0 1
      { helperAtStart 0 with m_inputUTF8 := 3 } := by
  have at_ : AtCursor (textMemory ['é', 'a', 'b']) 0 ['é', 'a'] ['b']
      { helperAtStart 0 with m_inputUTF8 := 3 } :=
    { notZero := List.all_iff_forall_prop.mp (by decide)
      held := by exact rfl
      cursor := by exact rfl }
  exact (moveBackward_inverts_iff at_ (by decide)).mpr
    (List.all_iff_forall_prop.mp (by decide))

/-- Behind an accented letter the helper comes to the middle of it. -/
theorem moveBackward_splitsLetter :
    AtCursor (textMemory ['é']) 0 ['é'] []
        { helperAtStart 0 with m_inputUTF8 := 2 } ∧
      1 ≤ ['é'].length ∧
      ∀ charIsSigned, ¬ MovesBack charIsSigned (textMemory ['é']) 0 1
        { helperAtStart 0 with m_inputUTF8 := 2 } := by
  have at_ : AtCursor (textMemory ['é']) 0 ['é'] []
      { helperAtStart 0 with m_inputUTF8 := 2 } :=
    { notZero := List.all_iff_forall_prop.mp (by decide)
      held := by exact rfl
      cursor := by exact rfl }
  refine ⟨at_, by decide, ?_⟩
  intro charIsSigned back
  have ascii := ascii_of_movesBack at_ (n := 1) (by decide) back
  exact absurd (List.all_iff_forall_prop.mpr ascii) (by decide)

end Text

end NanoClr
