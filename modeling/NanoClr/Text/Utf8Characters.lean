import NanoClr.Library.UnicodeEncodings
import NanoClr.Text.UnicodeHelper
import Mathlib.Data.Nat.Bitwise

/-!
# Walking over characters

The characters that `ConvertFromUTF8` takes, what it makes of them, and where
it stands after any number of them.
-/

namespace NanoClr

namespace Text

/-! ## Bytes -/

section Bytes

variable {ch : UInt8}

theorem byteClass_toNat (ch : UInt8) :
    byteClass ch =
      if ch.toNat < 0x80 then .single
      else if ch.toNat < 0xC0 then .lowPart
      else if ch.toNat < 0xE0 then .two
      else if ch.toNat < 0xF0 then .three
      else .four := by
  have table : ∀ value : Fin 256,
      byteClass (UInt8.ofFin value) =
        if value.val < 0x80 then .single
        else if value.val < 0xC0 then .lowPart
        else if value.val < 0xE0 then .two
        else if value.val < 0xF0 then .three
        else .four := by
    decide +kernel
  exact table ch.toFin

theorem byteClass_single_iff : byteClass ch = .single ↔ ch.toNat < 0x80 := by
  rw [byteClass_toNat]
  split
  case isTrue small => exact iff_of_true rfl small
  case isFalse large =>
    apply iff_of_false _ large
    split
    · exact ByteClass.noConfusion
    · split
      · exact ByteClass.noConfusion
      · split <;> exact ByteClass.noConfusion

theorem byteClass_two
    (large : 0xC0 ≤ ch.toNat)
    (small : ch.toNat < 0xE0) :
    byteClass ch = .two := by
  rw [byteClass_toNat, if_neg (by omega), if_neg (by omega), if_pos small]

theorem byteClass_three
    (large : 0xE0 ≤ ch.toNat)
    (small : ch.toNat < 0xF0) :
    byteClass ch = .three := by
  rw [byteClass_toNat, if_neg (by omega), if_neg (by omega),
    if_neg (by omega), if_pos small]

theorem byteClass_four (large : 0xF0 ≤ ch.toNat) : byteClass ch = .four := by
  rw [byteClass_toNat, if_neg (by omega), if_neg (by omega),
    if_neg (by omega), if_neg (by omega)]

theorem loadLowPart_toNat
    {ch2 : UInt32}
    (small : ch2.toNat < 2 ^ 26) :
    (UTF8_LOAD_LOWPART ch2 ch).toNat = ch2.toNat * 64 + ch.toNat % 64 := by
  have low : (ch.toNat &&& 63) = ch.toNat % 64 :=
    Nat.and_two_pow_sub_one_eq_mod _ 6
  have bound := Nat.mod_lt ch.toNat (show 0 < 64 by decide)
  rw [UTF8_LOAD_LOWPART]
  simp only [UInt32.toNat_or, UInt32.toNat_shiftLeft, UInt32.toNat_and,
    UInt8.toNat_toUInt32, UInt32.reduceToNat, Nat.reduceMod]
  rw [low, Nat.shiftLeft_eq, Nat.mod_eq_of_lt (by omega), ← Nat.shiftLeft_eq,
    ← Nat.shiftLeft_add_eq_or_of_lt (by omega), Nat.shiftLeft_eq]

end Bytes

/-! ## Characters -/

/-- The bytes of one character that is taken. -/
def Accepted : List UInt8 → Prop
  | [ch] => byteClass ch = .single ∧ ch ≠ 0
  | [ch, _] => byteClass ch = .two ∧ ¬ ch < 0xC2
  | [ch, _, _] => byteClass ch = .three
  | [ch, _, _, _] => byteClass ch = .four ∧ ¬ 0xF5 ≤ ch
  | _ => False

/-- What a character becomes. -/
def unitsOf : List UInt8 → List UInt16
  | [ch] => [ch.toUInt16]
  | [ch, second] =>
      [(UTF8_LOAD_LOWPART (ch.toUInt32 &&& 0x1F) second).toUInt16]
  | [ch, second, third] =>
      [(UTF8_LOAD_LOWPART (UTF8_LOAD_LOWPART (ch.toUInt32 &&& 0x0F) second)
        third).toUInt16]
  | [ch, second, third, fourth] =>
      surrogates (UTF8_LOAD_LOWPART
        (UTF8_LOAD_LOWPART (UTF8_LOAD_LOWPART (ch.toUInt32 &&& 0x07) second)
          third) fourth)
  | _ => []

/-- The units that a sequence of characters becomes. -/
def unitsOfAll (characters : List (List UInt8)) : List UInt16 :=
  characters.flatMap unitsOf

namespace FromUTF8

/-- The variables behind a character. -/
def advance
    (fJustMove : Bool)
    (bytes : Nat)
    (units : List UInt16)
    (state : FromUTF8) : FromUTF8 :=
  let moved :=
    { state with
      inputUTF8 := state.inputUTF8 + bytes
      iMaxChars := state.iMaxChars - units.length
      iMaxBytes := state.iMaxBytes - bytes }
  if fJustMove then
    moved
  else
    { moved with
      outputUTF16 := state.outputUTF16 + units.length
      outputUTF16_size := state.outputUTF16_size - units.length
      utf16 := writeCells state.utf16 state.outputUTF16 units }

/-- There is room for so many units. -/
def HasRoom (fJustMove : Bool) (units : Nat) (state : FromUTF8) : Prop :=
  fJustMove = true ∨ (units : Int) ≤ state.outputUTF16_size

section Advance

variable
  {utf8 : Nat → UInt8}
  {fJustMove : Bool}
  {bytes : Nat}
  {units : List UInt16}
  {state : FromUTF8}

@[simp] theorem inputUTF8_advance :
    (state.advance fJustMove bytes units).inputUTF8 =
      state.inputUTF8 + bytes := by
  cases fJustMove <;> rfl

@[simp] theorem iMaxChars_advance :
    (state.advance fJustMove bytes units).iMaxChars =
      state.iMaxChars - units.length := by
  cases fJustMove <;> rfl

@[simp] theorem iMaxBytes_advance :
    (state.advance fJustMove bytes units).iMaxBytes =
      state.iMaxBytes - bytes := by
  cases fJustMove <;> rfl

theorem advance_none : state.advance fJustMove 0 [] = state := by
  cases fJustMove with
  | true => simp [advance]
  | false => simp [advance, writeCells]

theorem advance_advance
    (moreBytes : Nat)
    (moreUnits : List UInt16) :
    (state.advance fJustMove bytes units).advance fJustMove moreBytes
        moreUnits =
      state.advance fJustMove (bytes + moreBytes) (units ++ moreUnits) := by
  cases fJustMove with
  | true =>
      simp only [advance, if_true, FromUTF8.mk.injEq, List.length_append,
        true_and, and_true]
      omega
  | false =>
      simp only [advance, Bool.false_eq_true, if_false, FromUTF8.mk.injEq,
        List.length_append, writeCells_append, and_true]
      omega

theorem hasRoom_advance
    {more : Nat}
    (room : state.HasRoom fJustMove (units.length + more)) :
    (state.advance fJustMove bytes units).HasRoom fJustMove more := by
  cases fJustMove with
  | true => exact Or.inl rfl
  | false =>
      have enough := room.resolve_left Bool.false_ne_true
      apply Or.inr
      simp only [advance, Bool.false_eq_true, if_false]
      omega

theorem take_eq
    (room : state.HasRoom fJustMove units.length)
    (left : (bytes : Int) ≤ state.iMaxBytes) :
    state.take fJustMove bytes units =
      .ok (state.advance fJustMove bytes units) := by
  unfold take advance
  dsimp only
  rw [if_neg (Int.not_lt.mpr left)]
  cases fJustMove with
  | true => rfl
  | false =>
      have enough := room.resolve_left Bool.false_ne_true
      rw [if_neg Bool.false_ne_true, if_neg Bool.false_ne_true,
        if_neg (Int.not_lt.mpr enough)]

theorem take_ok
    {next : FromUTF8}
    (taken : state.take fJustMove bytes units = .ok next) :
    next = state.advance fJustMove bytes units := by
  unfold take at taken
  dsimp only at taken
  split at taken
  · cases taken
  · cases fJustMove with
    | true =>
        cases taken
        rfl
    | false =>
        rw [if_neg Bool.false_ne_true] at taken
        split at taken
        · cases taken
        · cases taken
          rfl

/-- A pass over a character that is taken. -/
theorem convertCharacter_accepted
    {character : List UInt8}
    (accepted : Accepted character)
    (held : Holds utf8 state.inputUTF8 character) :
    state.convertCharacter utf8 fJustMove =
      state.take fJustMove character.length (unitsOf character) := by
  match character, accepted, held with
  | [ch], accepted, held =>
      rw [holds_cons] at held
      unfold convertCharacter
      dsimp only
      rw [held.1, accepted.1]
      dsimp only
      rw [if_neg accepted.2]
      rfl
  | [ch, second], accepted, held =>
      simp only [holds_cons] at held
      unfold convertCharacter
      dsimp only
      rw [held.1, accepted.1]
      dsimp only
      rw [if_neg accepted.2, loadLowParts, loadLowParts, held.2.1]
      rfl
  | [ch, second, third], accepted, held =>
      simp only [holds_cons] at held
      unfold convertCharacter
      dsimp only
      rw [held.1, show byteClass ch = .three from accepted]
      dsimp only
      rw [loadLowParts, loadLowParts, loadLowParts, held.2.1, held.2.2.1]
      rfl
  | [ch, second, third, fourth], accepted, held =>
      simp only [holds_cons] at held
      unfold convertCharacter
      dsimp only
      rw [held.1, accepted.1]
      dsimp only
      rw [if_neg accepted.2, loadLowParts, loadLowParts, loadLowParts,
        loadLowParts, held.2.1, held.2.2.1, held.2.2.2.1]
      rfl

/-- What stands at a place: a character that is taken, or something that stops
the helper whether it converts or moves. -/
theorem characterAt_cases (utf8 : Nat → UInt8) (place : Nat) :
    (∃ character, Accepted character ∧ Holds utf8 place character) ∨
      ∃ read, ∀ (fJustMove : Bool) (state : FromUTF8),
        state.inputUTF8 = place →
          state.convertCharacter utf8 fJustMove =
            .error { state with inputUTF8 := state.inputUTF8 + read } := by
  cases kind : byteClass (utf8 place) with
  | single =>
      by_cases zero : utf8 place = 0
      · refine Or.inr ⟨0, ?_⟩
        rintro fJustMove state rfl
        unfold convertCharacter
        dsimp only
        rw [kind]
        dsimp only
        rw [if_pos zero]
        rfl
      · exact Or.inl ⟨[_], ⟨kind, zero⟩, holds_cellsAt 1⟩
  | lowPart =>
      refine Or.inr ⟨1, ?_⟩
      rintro fJustMove state rfl
      unfold convertCharacter
      dsimp only
      rw [kind]
  | two =>
      by_cases overlong : utf8 place < 0xC2
      · refine Or.inr ⟨0, ?_⟩
        rintro fJustMove state rfl
        unfold convertCharacter
        dsimp only
        rw [kind]
        dsimp only
        rw [if_pos overlong]
        rfl
      · exact Or.inl ⟨[_, _], ⟨kind, overlong⟩, holds_cellsAt 2⟩
  | three => exact Or.inl ⟨[_, _, _], kind, holds_cellsAt 3⟩
  | four =>
      by_cases restricted : 0xF5 ≤ utf8 place
      · refine Or.inr ⟨0, ?_⟩
        rintro fJustMove state rfl
        unfold convertCharacter
        dsimp only
        rw [kind]
        dsimp only
        rw [if_pos restricted]
        rfl
      · exact Or.inl ⟨[_, _, _, _], ⟨kind, restricted⟩, holds_cellsAt 4⟩

/-- A pass that goes on has taken a character. -/
theorem convertCharacter_ok
    {next : FromUTF8}
    (passed : state.convertCharacter utf8 fJustMove = .ok next) :
    ∃ character, Accepted character ∧
      Holds utf8 state.inputUTF8 character ∧
      next = state.advance fJustMove character.length (unitsOf character) := by
  rcases characterAt_cases utf8 state.inputUTF8 with
    ⟨character, accepted, held⟩ | ⟨read, stops⟩
  · refine ⟨character, accepted, held, ?_⟩
    rw [convertCharacter_accepted accepted held] at passed
    exact take_ok passed
  · rw [stops fJustMove state rfl] at passed
    cases passed

/-! ## Runs -/

theorem accepted_length_pos {character : List UInt8}
    (accepted : Accepted character) :
    0 < character.length := by
  match character, accepted with
  | _ :: _, _ => exact Nat.succ_pos _

theorem unitsOf_length_pos {character : List UInt8}
    (accepted : Accepted character) :
    0 < (unitsOf character).length := by
  match character, accepted with
  | [_], _ => exact Nat.one_pos
  | [_, _], _ => exact Nat.one_pos
  | [_, _, _], _ => exact Nat.one_pos
  | [_, _, _, _], _ => exact Nat.two_pos

/-- A character has at most three bytes for each of its units. -/
theorem accepted_length_le {character : List UInt8}
    (accepted : Accepted character) :
    character.length ≤ 3 * (unitsOf character).length := by
  match character, accepted with
  | [_], _ => exact Nat.le_of_ble_eq_true rfl
  | [_, _], _ => exact Nat.le_of_ble_eq_true rfl
  | [_, _, _], _ => exact Nat.le_of_ble_eq_true rfl
  | [_, _, _, _], _ => exact Nat.le_of_ble_eq_true rfl

theorem flatten_length_le
    {characters : List (List UInt8)}
    (accepted : ∀ character ∈ characters, Accepted character) :
    characters.flatten.length ≤ 3 * (unitsOfAll characters).length := by
  induction characters with
  | nil => exact Nat.le_refl 0
  | cons character characters inductionHypothesis =>
      rw [List.forall_mem_cons] at accepted
      have first := accepted_length_le accepted.1
      have rest := inductionHypothesis accepted.2
      rw [List.flatten_cons, unitsOfAll, List.flatMap_cons, List.length_append,
        List.length_append]
      rw [unitsOfAll] at rest
      omega

/-- A pass over a character goes on behind it. -/
theorem convert_step
    {next : FromUTF8}
    (inside : 0 < state.iMaxChars ∧ 0 < state.iMaxBytes)
    (pass : state.convertCharacter utf8 fJustMove = .ok next) :
    state.convert utf8 fJustMove = next.convert utf8 fJustMove := by
  rw [convert, if_pos inside]
  split
  case h_1 exited failed =>
    rw [pass] at failed
    cases failed
  case h_2 after passed =>
    rw [pass] at passed
    cases passed
    rfl

theorem convert_exit
    {exited : FromUTF8}
    (inside : 0 < state.iMaxChars ∧ 0 < state.iMaxBytes)
    (pass : state.convertCharacter utf8 fJustMove = .error exited) :
    state.convert utf8 fJustMove = .error exited := by
  rw [convert, if_pos inside]
  split
  case h_1 after failed =>
    rw [pass] at failed
    cases failed
    rfl
  case h_2 after passed =>
    rw [pass] at passed
    cases passed

theorem convert_done
    (outside : ¬ (0 < state.iMaxChars ∧ 0 < state.iMaxBytes)) :
    state.convert utf8 fJustMove = .ok state := by
  rw [convert, if_neg outside]

/-- The helper goes over characters as long as it may and there is room. -/
theorem convert_characters
    {characters : List (List UInt8)}
    (accepted : ∀ character ∈ characters, Accepted character)
    (held : Holds utf8 state.inputUTF8 characters.flatten)
    (room : state.HasRoom fJustMove (unitsOfAll characters).length)
    (chars : ((unitsOfAll characters).length : Int) ≤ state.iMaxChars)
    (left : (characters.flatten.length : Int) ≤ state.iMaxBytes) :
    state.convert utf8 fJustMove =
      (state.advance fJustMove characters.flatten.length
        (unitsOfAll characters)).convert utf8 fJustMove := by
  induction characters generalizing state with
  | nil =>
      rw [unitsOfAll, List.flatMap_nil, List.flatten_nil, List.length_nil,
        advance_none]
  | cons character characters inductionHypothesis =>
      rw [List.forall_mem_cons] at accepted
      have someUnits := unitsOf_length_pos accepted.1
      have someBytes := accepted_length_pos accepted.1
      simp only [unitsOfAll, List.flatMap_cons, List.flatten_cons,
        List.length_append, holds_append] at held room chars left ⊢
      have first : state.convertCharacter utf8 fJustMove =
          .ok (state.advance fJustMove character.length
            (unitsOf character)) := by
        rw [convertCharacter_accepted accepted.1 held.1]
        apply take_eq
        · rcases room with moves | enough
          · exact Or.inl moves
          · exact Or.inr (by omega)
        · omega
      rw [convert_step (by omega) first, inductionHypothesis accepted.2,
        advance_advance]
      · rfl
      · rw [inputUTF8_advance]
        exact held.2
      · exact hasRoom_advance room
      · rw [iMaxChars_advance]
        rw [unitsOfAll]
        omega
      · rw [iMaxBytes_advance]
        omega

end Advance

end FromUTF8

namespace CLR_RT_UnicodeHelper

section ConvertFromUTF8

variable
  {memory : TextMemory}
  {helper : CLR_RT_UnicodeHelper}
  {iMaxChars iMaxBytes : Int}
  {characters : List (List UInt8)}

/-- The zero at the end stops the helper before it is read. -/
theorem convertCharacter_zero
    {utf8 : Nat → UInt8}
    {fJustMove : Bool}
    {state : FromUTF8}
    (zero : utf8 state.inputUTF8 = 0) :
    state.convertCharacter utf8 fJustMove = .error state := by
  unfold FromUTF8.convertCharacter
  dsimp only
  rw [zero, show byteClass 0 = .single by decide]
  dsimp only
  rw [if_pos rfl]

/-- What the helper has done once it has gone over a whole string. -/
structure Converted
    (helper : CLR_RT_UnicodeHelper)
    (bytes : Nat)
    (units : List UInt16)
    (iMaxChars : Int)
    (result : Bool × TextMemory × CLR_RT_UnicodeHelper) : Prop where
  output : Holds result.2.1.utf16 helper.m_outputUTF16 units
  outputEnd : result.2.2.m_outputUTF16 = helper.m_outputUTF16 + units.length
  inputEnd : result.2.2.m_inputUTF8 = helper.m_inputUTF8 + bytes
  terminated : iMaxChars = units.length →
    result.1 = true ∧
      result.2.1.utf16 (helper.m_outputUTF16 + units.length) = 0

theorem converted_characters
    (accepted : ∀ character ∈ characters, Accepted character)
    (held : Holds memory.utf8 helper.m_inputUTF8 (characters.flatten ++ [0]))
    (size : ((unitsOfAll characters).length : Int) < helper.m_outputUTF16_size)
    (chars : ((unitsOfAll characters).length : Int) ≤ iMaxChars)
    (bytes : iMaxBytes = -1 ∨ (characters.flatten.length : Int) ≤ iMaxBytes) :
    Converted helper characters.flatten.length (unitsOfAll characters) iMaxChars
      (helper.ConvertFromUTF8 memory iMaxChars false iMaxBytes) := by
  rw [holds_append, holds_cons] at held
  have most := FromUTF8.flatten_length_le accepted
  have left : (characters.flatten.length : Int) ≤
      (helper.fromUTF8 memory iMaxChars iMaxBytes).iMaxBytes := by
    unfold fromUTF8
    dsimp only
    split <;> omega
  have run : (helper.fromUTF8 memory iMaxChars iMaxBytes).convert memory.utf8
      false = _ :=
    FromUTF8.convert_characters accepted held.1
      (Or.inr (Int.le_of_lt size)) chars left
  have written : Holds
      (writeCells memory.utf16 helper.m_outputUTF16 (unitsOfAll characters))
      helper.m_outputUTF16 (unitsOfAll characters) := holds_writeCells
  by_cases inside :
      0 < iMaxChars - (unitsOfAll characters).length ∧
        0 < (helper.fromUTF8 memory iMaxChars iMaxBytes).iMaxBytes -
          characters.flatten.length
  · -- The helper may go on, and it meets the zero.
    rw [ConvertFromUTF8, run, FromUTF8.convert_exit
      (by rw [FromUTF8.iMaxChars_advance, FromUTF8.iMaxBytes_advance]
          exact inside)
      (convertCharacter_zero
        (by rw [FromUTF8.inputUTF8_advance]; exact held.2.1))]
    refine ⟨written, rfl, rfl, ?_⟩
    intro exact_
    omega
  · rw [ConvertFromUTF8, run, FromUTF8.convert_done
      (by rw [FromUTF8.iMaxChars_advance, FromUTF8.iMaxBytes_advance]
          exact inside)]
    have last : (((helper.fromUTF8 memory iMaxChars iMaxBytes).advance false
        characters.flatten.length (unitsOfAll characters)).terminate false) =
        .ok
          { (helper.fromUTF8 memory iMaxChars iMaxBytes).advance false
              characters.flatten.length (unitsOfAll characters) with
            utf16 := Function.update
              (writeCells memory.utf16 helper.m_outputUTF16
                (unitsOfAll characters))
              (helper.m_outputUTF16 + (unitsOfAll characters).length) 0 } := by
      unfold FromUTF8.terminate
      rw [if_neg Bool.false_ne_true, if_neg]
      · rfl
      · apply Int.not_lt.mpr
        exact Int.le_sub_left_of_add_le size
    dsimp only
    rw [last]
    refine ⟨?_, rfl, rfl, fun _ => ⟨rfl, Function.update_self _ _ _⟩⟩
    unfold Holds at written ⊢
    refine Eq.trans (cellsAt_congr ?_) written
    intro place _ below
    exact Function.update_of_ne (by omega) _ _

end ConvertFromUTF8

end CLR_RT_UnicodeHelper

end Text

end NanoClr
