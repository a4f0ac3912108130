import Mathlib.Data.Bool.AllAny
import NanoClr.Text.Utf8Characters

/-!
# From UTF-8 to UTF-16 and back

`ConvertToUTF8` inverts the encoding in UTF-16. `ConvertFromUTF8` gives that
encoding for the characters of the basic multilingual plane; for the others it
does not reduce the high part before it makes a surrogate of it.
-/

namespace NanoClr

namespace Text

/-- A well-formed string in UTF-8. -/
def utf8Of (characters : List Char) : List UInt8 :=
  characters.flatMap String.utf8EncodeChar

/-- The same string in UTF-16. -/
def utf16Of (characters : List Char) : List UInt16 :=
  characters.flatMap utf16EncodeChar

section Characters

variable {character : Char}

/-- A byte of an encoded character. -/
theorem toNat_ofNat_byte {value : Nat} (small : value < 0x100) :
    (UInt8.ofNat value).toNat = value :=
  UInt8.toNat_ofNat_of_lt' small

theorem toNat_ofNat_unit {value : Nat} (small : value < 0x10000) :
    (UInt16.ofNat value).toNat = value :=
  UInt16.toNat_ofNat_of_lt' small

theorem byte_lt_iff {byte : UInt8} {value : Nat} (small : value < 0x100) :
    byte < UInt8.ofNat value ↔ byte.toNat < value := by
  rw [UInt8.lt_iff_toNat_lt, toNat_ofNat_byte small]

theorem accepted_utf8EncodeChar (notZero : character.toNat ≠ 0) :
    Accepted (String.utf8EncodeChar character) := by
  have bound := character_lt character
  apply character_cases character
  · intro small
    have byte := toNat_ofNat_byte (show character.toNat < 0x100 by omega)
    rw [utf8EncodeChar_one small]
    refine ⟨byteClass_single_iff.mpr (by omega), ?_⟩
    intro zero
    rw [zero] at byte
    exact notZero byte.symm
  · intro large small
    have byte := toNat_ofNat_byte
      (show character.toNat / 64 % 32 + 0xC0 < 0x100 by omega)
    rw [utf8EncodeChar_two large small]
    refine ⟨byteClass_two (by omega) (by omega), ?_⟩
    rw [show (0xC2 : UInt8) = UInt8.ofNat 0xC2 from rfl,
      byte_lt_iff (by decide)]
    omega
  · intro large small
    have byte := toNat_ofNat_byte
      (show character.toNat / 4096 % 16 + 0xE0 < 0x100 by omega)
    rw [utf8EncodeChar_three large small]
    exact byteClass_three (by omega) (by omega)
  · intro large
    have byte := toNat_ofNat_byte
      (show character.toNat / 262144 % 8 + 0xF0 < 0x100 by omega)
    rw [utf8EncodeChar_four large]
    refine ⟨byteClass_four (by omega), ?_⟩
    rw [show (0xF5 : UInt8) = UInt8.ofNat 0xF5 from rfl, UInt8.not_le,
      byte_lt_iff (by decide)]
    omega

/-! ## What a character becomes -/

/-- The first bits of a character. -/
theorem masked_toNat (ch : UInt8) (places : Nat) (small : places ≤ 8) :
    (ch.toUInt32 &&& UInt32.ofNat (2 ^ places - 1)).toNat =
      ch.toNat % 2 ^ places := by
  have fits : 2 ^ places ≤ 2 ^ 8 := Nat.pow_le_pow_right (by decide) small
  rw [UInt32.toNat_and, UInt8.toNat_toUInt32,
    UInt32.toNat_ofNat_of_lt' (by rw [UInt32.size]; omega),
    Nat.and_two_pow_sub_one_eq_mod]

/-- The value of two bytes. -/
theorem load_two (ch second : UInt8) :
    (UTF8_LOAD_LOWPART (ch.toUInt32 &&& 0x1F) second).toNat =
      ch.toNat % 32 * 64 + second.toNat % 64 := by
  have first : (ch.toUInt32 &&& 0x1F).toNat = ch.toNat % 32 :=
    masked_toNat ch 5 (by decide)
  rw [loadLowPart_toNat (by omega), first]

theorem load_three (ch second third : UInt8) :
    (UTF8_LOAD_LOWPART (UTF8_LOAD_LOWPART (ch.toUInt32 &&& 0x0F) second)
        third).toNat =
      (ch.toNat % 16 * 64 + second.toNat % 64) * 64 + third.toNat % 64 := by
  have first : (ch.toUInt32 &&& 0x0F).toNat = ch.toNat % 16 :=
    masked_toNat ch 4 (by decide)
  have two : (UTF8_LOAD_LOWPART (ch.toUInt32 &&& 0x0F) second).toNat =
      ch.toNat % 16 * 64 + second.toNat % 64 := by
    rw [loadLowPart_toNat (by omega), first]
  rw [loadLowPart_toNat (by omega), two]

theorem load_four (ch second third fourth : UInt8) :
    (UTF8_LOAD_LOWPART
        (UTF8_LOAD_LOWPART (UTF8_LOAD_LOWPART (ch.toUInt32 &&& 0x07) second)
          third) fourth).toNat =
      ((ch.toNat % 8 * 64 + second.toNat % 64) * 64 + third.toNat % 64) * 64 +
        fourth.toNat % 64 := by
  have first : (ch.toUInt32 &&& 0x07).toNat = ch.toNat % 8 :=
    masked_toNat ch 3 (by decide)
  have two : (UTF8_LOAD_LOWPART (ch.toUInt32 &&& 0x07) second).toNat =
      ch.toNat % 8 * 64 + second.toNat % 64 := by
    rw [loadLowPart_toNat (by omega), first]
  have three : (UTF8_LOAD_LOWPART
      (UTF8_LOAD_LOWPART (ch.toUInt32 &&& 0x07) second) third).toNat =
      (ch.toNat % 8 * 64 + second.toNat % 64) * 64 + third.toNat % 64 := by
    rw [loadLowPart_toNat (by omega), two]
  rw [loadLowPart_toNat (by omega), three]

theorem toUInt16_eq
    {value : UInt32}
    {code : Nat}
    (same : value.toNat = code)
    (small : code < 0x10000) :
    value.toUInt16 = UInt16.ofNat code := by
  apply UInt16.toNat_inj.mp
  rw [UInt32.toNat_toUInt16, toNat_ofNat_unit small, same,
    Nat.mod_eq_of_lt small]

theorem unitsOf_utf8EncodeChar_small (small : character.toNat < 0x10000) :
    unitsOf (String.utf8EncodeChar character) = utf16EncodeChar character := by
  rw [utf16EncodeChar_one small]
  apply character_cases character
  · intro one
    have byte := toNat_ofNat_byte (show character.toNat < 0x100 by omega)
    rw [utf8EncodeChar_one one, unitsOf]
    congr 1
    apply UInt16.toNat_inj.mp
    rw [UInt8.toNat_toUInt16, byte, toNat_ofNat_unit small]
  · intro large two
    rw [utf8EncodeChar_two large two, unitsOf]
    congr 1
    apply toUInt16_eq _ small
    rw [load_two, toNat_ofNat_byte (by omega), toNat_ofNat_byte (by omega)]
    omega
  · intro large three
    rw [utf8EncodeChar_three large three, unitsOf]
    congr 1
    apply toUInt16_eq _ small
    rw [load_three, toNat_ofNat_byte (by omega), toNat_ofNat_byte (by omega),
      toNat_ofNat_byte (by omega)]
    omega
  · intro large
    exact absurd small (Nat.not_lt.mpr large)

/-- Outside the basic multilingual plane the high part is too large. -/
theorem unitsOf_utf8EncodeChar_large (large : 0x10000 ≤ character.toNat) :
    unitsOf (String.utf8EncodeChar character) =
      [UInt16.ofNat (0xD800 + character.toNat / 0x400),
        UInt16.ofNat (0xDC00 + character.toNat % 0x400)] := by
  have bound := character_lt character
  rw [utf8EncodeChar_four large, unitsOf, surrogates]
  have value := load_four (UInt8.ofNat (character.toNat / 262144 % 8 + 0xF0))
    (UInt8.ofNat (character.toNat / 4096 % 64 + 0x80))
    (UInt8.ofNat (character.toNat / 64 % 64 + 0x80))
    (UInt8.ofNat (character.toNat % 64 + 0x80))
  rw [toNat_ofNat_byte (by omega), toNat_ofNat_byte (by omega),
    toNat_ofNat_byte (by omega), toNat_ofNat_byte (by omega)] at value
  generalize UTF8_LOAD_LOWPART _ _ = ch2 at value ⊢
  have code : ch2.toNat = character.toNat := by omega
  have low : (ch2 &&& SURROGATE_HALFMASK).toNat = character.toNat % 0x400 := by
    rw [UInt32.toNat_and, code]
    exact Nat.and_two_pow_sub_one_eq_mod _ 10
  have high : (ch2 >>> SURROGATE_HALFSHIFT).toNat = character.toNat / 0x400 := by
    rw [UInt32.toNat_shiftRight, code]
    exact Nat.shiftRight_eq_div_pow _ 10
  rw [List.cons.injEq, List.cons.injEq]
  refine ⟨?_, ?_, rfl⟩
  · apply toUInt16_eq _ (by omega)
    rw [UInt32.toNat_add, high]
    have start : HIGH_SURROGATE_START.toNat = 0xD800 := rfl
    omega
  · apply toUInt16_eq _ (by omega)
    rw [UInt32.toNat_add, low]
    have start : LOW_SURROGATE_START.toNat = 0xDC00 := rfl
    omega

theorem unitsOf_length (character : Char) :
    (unitsOf (String.utf8EncodeChar character)).length =
      (utf16EncodeChar character).length := by
  rcases Nat.lt_or_ge character.toNat 0x10000 with small | large
  · rw [unitsOf_utf8EncodeChar_small small]
  · rw [unitsOf_utf8EncodeChar_large large, utf16EncodeChar_two large,
      List.length_cons, List.length_cons, List.length_cons, List.length_cons]

/-- The units of a character are those of its encoding exactly when it lies in
the basic multilingual plane. -/
theorem unitsOf_utf8EncodeChar_iff :
    unitsOf (String.utf8EncodeChar character) = utf16EncodeChar character ↔
      character.toNat < 0x10000 := by
  constructor
  · intro same
    by_contra outside
    have large := Nat.not_lt.mp outside
    have bound := character_lt character
    rw [unitsOf_utf8EncodeChar_large large, utf16EncodeChar_two large,
      List.cons.injEq] at same
    have high := congrArg UInt16.toNat same.1
    rw [toNat_ofNat_unit (by omega), toNat_ofNat_unit (by omega)] at high
    omega
  · exact unitsOf_utf8EncodeChar_small

/-! ## What units become -/

theorem marked_eq
    {mark mask ch : UInt32}
    {code : Nat}
    (tag places : Nat)
    (marks : mark.toNat = tag <<< places)
    (masks : mask.toNat = 2 ^ places - 1)
    (same : ch.toNat = code) :
    marked mark mask ch = UInt8.ofNat (code % 2 ^ places + tag * 2 ^ places) := by
  have bound := Nat.mod_lt code (Nat.two_pow_pos places)
  apply UInt8.toNat_inj.mp
  rw [marked, UInt32.toNat_toUInt8, UInt32.toNat_or, UInt32.toNat_and, marks,
    masks, same, Nat.and_two_pow_sub_one_eq_mod,
    ← Nat.shiftLeft_add_eq_or_of_lt bound, Nat.shiftLeft_eq, Nat.add_comm]
  rfl

theorem shifted_toNat
    {ch : UInt32}
    {code : Nat}
    (same : ch.toNat = code) :
    (ch >>> 6).toNat = code / 64 := by
  rw [UInt32.toNat_shiftRight, same]
  exact Nat.shiftRight_eq_div_pow _ 6

theorem shiftedTwice_toNat
    {ch : UInt32}
    {code : Nat}
    (same : ch.toNat = code) :
    (ch >>> 6 >>> 6).toNat = code / 4096 := by
  rw [shifted_toNat (shifted_toNat same), Nat.div_div_eq_div_mul]

theorem shiftedThrice_toNat
    {ch : UInt32}
    {code : Nat}
    (same : ch.toNat = code) :
    (ch >>> 6 >>> 6 >>> 6).toNat = code / 262144 := by
  rw [shifted_toNat (shiftedTwice_toNat same), Nat.div_div_eq_div_mul]

variable {utf16 : Nat → UInt16} {fJustMove : Bool} {state : ToUTF8}

theorem unit_toNat
    {address code : Nat}
    (held : utf16 address = UInt16.ofNat code)
    (small : code < 0x10000) :
    (utf16 address).toUInt32.toNat = code := by
  rw [held, UInt16.toNat_toUInt32, toNat_ofNat_unit small]

/-- The character of a pair of surrogates. -/
theorem pair_toNat
    {high low : UInt32}
    (large : 0x10000 ≤ character.toNat)
    (highPart : high.toNat = 0xD800 + (character.toNat - 0x10000) / 0x400)
    (lowPart : low.toNat = 0xDC00 + (character.toNat - 0x10000) % 0x400) :
    (SURROGATE_HALFBASE +
        ((high - HIGH_SURROGATE_START) <<< SURROGATE_HALFSHIFT) +
        (low - LOW_SURROGATE_START)).toNat = character.toNat := by
  have bound := character_lt character
  have highStart : HIGH_SURROGATE_START.toNat = 0xD800 := rfl
  have lowStart : LOW_SURROGATE_START.toNat = 0xDC00 := rfl
  have base : SURROGATE_HALFBASE.toNat = 0x10000 := rfl
  have shift : SURROGATE_HALFSHIFT.toNat % 32 = 10 := rfl
  have highBits : (high - HIGH_SURROGATE_START).toNat =
      (character.toNat - 0x10000) / 0x400 := by
    rw [UInt32.toNat_sub_of_le _ _
      (UInt32.le_iff_toNat_le.mpr (by omega))]
    omega
  have lowBits : (low - LOW_SURROGATE_START).toNat =
      (character.toNat - 0x10000) % 0x400 := by
    rw [UInt32.toNat_sub_of_le _ _
      (UInt32.le_iff_toNat_le.mpr (by omega))]
    omega
  rw [UInt32.toNat_add, UInt32.toNat_add, UInt32.toNat_shiftLeft, base,
    highBits, lowBits, shift, Nat.shiftLeft_eq]
  omega

/-- A pass over the units of a character gives its bytes. -/
theorem convertCharacter_utf16EncodeChar
    (notZero : character.toNat ≠ 0)
    (held : Holds utf16 state.inputUTF16 (utf16EncodeChar character)) :
    state.convertCharacter utf16 fJustMove =
      .taken (state.take fJustMove (utf16EncodeChar character).length
        (String.utf8EncodeChar character)) := by
  have notSurrogate := character_notSurrogate character
  have highStart : HIGH_SURROGATE_START.toNat = 0xD800 := rfl
  have highEnd : HIGH_SURROGATE_END.toNat = 0xDBFF := rfl
  unfold ToUTF8.convertCharacter
  dsimp only
  simp only [UInt32.lt_iff_toNat_lt, UInt32.le_iff_toNat_le, highStart, highEnd,
    UInt32.reduceToNat, ← UInt32.toNat_inj]
  apply character_cases character
  · intro one
    rw [utf16EncodeChar_one (by omega), holds_cons] at held
    have unit := unit_toNat held.1 (by omega)
    rw [unit, if_pos one, if_neg notZero, utf16EncodeChar_one (by omega),
      utf8EncodeChar_one one]
    congr 3
    apply UInt8.toNat_inj.mp
    rw [UInt32.toNat_toUInt8, unit]
    rfl
  · intro large two
    rw [utf16EncodeChar_one (by omega), holds_cons] at held
    have unit := unit_toNat held.1 (by omega)
    rw [unit, if_neg (Nat.not_lt.mpr large), if_pos two,
      utf16EncodeChar_one (by omega), utf8EncodeChar_two large two,
      marked_eq 6 5 rfl rfl (shifted_toNat unit), marked_eq 2 6 rfl rfl unit]
    rfl
  · intro large three
    rw [utf16EncodeChar_one three, holds_cons] at held
    have unit := unit_toNat held.1 three
    rw [unit, if_neg (by omega), if_neg (Nat.not_lt.mpr large),
      if_neg (by omega), utf16EncodeChar_one three,
      utf8EncodeChar_three large three,
      marked_eq 14 4 rfl rfl (shiftedTwice_toNat unit),
      marked_eq 2 6 rfl rfl (shifted_toNat unit), marked_eq 2 6 rfl rfl unit]
    rfl
  · intro large
    have bound := character_lt character
    rw [utf16EncodeChar_two large, holds_cons, holds_cons] at held
    have high := unit_toNat held.1 (by omega)
    have low := unit_toNat held.2.1 (by omega)
    have code := pair_toNat large high low
    rw [high, if_neg (by omega), if_neg (by omega), if_pos (by omega),
      utf16EncodeChar_two large, utf8EncodeChar_four large,
      marked_eq 30 3 rfl rfl (shiftedThrice_toNat code),
      marked_eq 2 6 rfl rfl (shiftedTwice_toNat code),
      marked_eq 2 6 rfl rfl (shifted_toNat code), marked_eq 2 6 rfl rfl code]
    rfl

end Characters

/-! ## Runs -/

namespace ToUTF8

/-- The variables behind characters that have been converted. -/
def advance (units : Nat) (bytes : List UInt8) (state : ToUTF8) : ToUTF8 where
  inputUTF16 := state.inputUTF16 + units
  outputUTF8 := state.outputUTF8 + bytes.length
  outputUTF8_size := state.outputUTF8_size - bytes.length
  iMaxChars := state.iMaxChars - units
  utf8 := writeCells state.utf8 state.outputUTF8 bytes

variable
  {utf16 : Nat → UInt16}
  {units : Nat}
  {bytes : List UInt8}
  {state : ToUTF8}

theorem advance_none : state.advance 0 [] = state := by
  simp [advance, writeCells]

theorem advance_advance (moreUnits : Nat) (moreBytes : List UInt8) :
    (state.advance units bytes).advance moreUnits moreBytes =
      state.advance (units + moreUnits) (bytes ++ moreBytes) := by
  simp only [advance, ToUTF8.mk.injEq, List.length_append, writeCells_append,
    and_true]
  omega

theorem take_eq (room : (bytes.length : Int) ≤ state.outputUTF8_size) :
    state.take false units bytes = .ok (state.advance units bytes) := by
  unfold take advance
  dsimp only
  rw [if_neg Bool.false_ne_true, if_neg (Int.not_lt.mpr room)]

theorem convert_step
    {next : ToUTF8}
    (inside : 0 < state.iMaxChars)
    (pass : state.convertCharacter utf16 false = .taken (.ok next)) :
    state.convert utf16 false = next.convert utf16 false := by
  rw [convert, if_pos inside]
  split
  case h_1 finished passed =>
    rw [pass] at passed
    cases passed
  case h_2 exited passed =>
    rw [pass] at passed
    cases passed
  case h_3 after passed =>
    rw [pass] at passed
    cases passed
    rfl

theorem convert_done (outside : ¬ 0 < state.iMaxChars) :
    state.convert utf16 false = .ok state := by
  rw [convert, if_neg outside]

/-- The helper converts a string in UTF-16 whatever its characters are. -/
theorem convert_utf16Of
    {characters : List Char}
    (notZero : ∀ character ∈ characters, character.toNat ≠ 0)
    (held : Holds utf16 state.inputUTF16 (utf16Of characters))
    (room : ((utf8Of characters).length : Int) ≤ state.outputUTF8_size)
    (chars : state.iMaxChars = (utf16Of characters).length) :
    state.convert utf16 false =
      .ok (state.advance (utf16Of characters).length
        (utf8Of characters)) := by
  induction characters generalizing state with
  | nil =>
      rw [convert_done (by rw [chars]; exact Int.lt_irrefl 0)]
      rw [show (utf16Of []).length = 0 from rfl, show utf8Of [] = [] from rfl,
        advance_none]
  | cons character characters inductionHypothesis =>
      rw [List.forall_mem_cons] at notZero
      have some := utf16EncodeChar_length_pos character
      simp only [utf16Of, utf8Of, List.flatMap_cons, List.length_append,
        holds_append] at held room chars ⊢
      have pass : state.convertCharacter utf16 false = _ :=
        convertCharacter_utf16EncodeChar notZero.1 held.1
      rw [take_eq (by omega)] at pass
      rw [convert_step (by omega) pass, inductionHypothesis notZero.2 held.2,
        advance_advance]
      · rfl
      · simp only [advance, utf8Of]
        omega
      · simp only [advance, utf16Of]
        omega

end ToUTF8

namespace CLR_RT_UnicodeHelper

/-- A string with its zero at the end, and buffers that suffice for it. -/
structure Suffices
    (memory : TextMemory)
    (helper : CLR_RT_UnicodeHelper)
    (iMaxChars iMaxBytes : Int)
    (characters : List Char) : Prop where
  notZero : ∀ character ∈ characters, character.toNat ≠ 0
  held : Holds memory.utf8 helper.m_inputUTF8 (utf8Of characters ++ [0])
  size : ((utf16Of characters).length : Int) < helper.m_outputUTF16_size
  chars : ((utf16Of characters).length : Int) ≤ iMaxChars
  bytes : iMaxBytes = -1 ∧ iMaxChars ≤ mostChars ∨
    ((utf8Of characters).length : Int) ≤ iMaxBytes

/-- The string is converted to its units and these are converted back. -/
def RoundTrips
    (memory : TextMemory)
    (helper : CLR_RT_UnicodeHelper)
    (iMaxChars iMaxBytes : Int)
    (characters : List Char) : Prop :=
  let converted := helper.ConvertFromUTF8 memory iMaxChars false iMaxBytes
  Holds converted.2.1.utf16 helper.m_outputUTF16 (utf16Of characters) ∧
    converted.2.2.m_outputUTF16 =
      helper.m_outputUTF16 + (utf16Of characters).length ∧
    ∀ back : CLR_RT_UnicodeHelper,
      back.m_inputUTF16 = helper.m_outputUTF16 →
      ((utf8Of characters).length : Int) < back.m_outputUTF8_size →
      let again := back.ConvertToUTF8 converted.2.1 (utf16Of characters).length
        false
      again.1 = true ∧
        Holds again.2.1.utf8 back.m_outputUTF8 (utf8Of characters ++ [0])

variable
  {memory : TextMemory}
  {helper : CLR_RT_UnicodeHelper}
  {iMaxChars iMaxBytes : Int}
  {characters : List Char}

/-- The units that the helper makes of a string. -/
def convertedUnits (characters : List Char) : List UInt16 :=
  unitsOfAll (characters.map String.utf8EncodeChar)

theorem convertedUnits_length (characters : List Char) :
    (convertedUnits characters).length = (utf16Of characters).length := by
  induction characters with
  | nil => rfl
  | cons character characters inductionHypothesis =>
      have first := unitsOf_length character
      rw [convertedUnits, unitsOfAll] at inductionHypothesis
      rw [convertedUnits, unitsOfAll, List.map_cons, List.flatMap_cons,
        List.length_append, inductionHypothesis, first, utf16Of, utf16Of,
        List.flatMap_cons, List.length_append]

/-- The units are right when no character lies outside the plane. -/
theorem convertedUnits_iff :
    convertedUnits characters = utf16Of characters ↔
      ∀ character ∈ characters, character.toNat < 0x10000 := by
  induction characters with
  | nil =>
      apply iff_of_true rfl
      intro character member
      cases member
  | cons character characters inductionHypothesis =>
      have first := unitsOf_length character
      rw [List.forall_mem_cons, ← inductionHypothesis,
        ← unitsOf_utf8EncodeChar_iff, convertedUnits, unitsOfAll, utf16Of,
        List.map_cons, List.flatMap_cons, List.flatMap_cons]
      constructor
      · intro same
        exact List.append_inj same first
      · rintro ⟨same, rest⟩
        exact congrArg₂ (· ++ ·) same rest

theorem accepted_characters
    (notZero : ∀ character ∈ characters, character.toNat ≠ 0) :
    ∀ bytes ∈ characters.map String.utf8EncodeChar, Accepted bytes := by
  intro bytes member
  have ⟨character, inside, same⟩ := List.mem_map.mp member
  rw [← same]
  exact accepted_utf8EncodeChar (notZero character inside)

/-- What `ConvertFromUTF8` does with a well-formed string. -/
theorem converted_utf8Of
    (suffices_ : Suffices memory helper iMaxChars iMaxBytes characters) :
    Converted helper (utf8Of characters).length (convertedUnits characters)
      iMaxChars (helper.ConvertFromUTF8 memory iMaxChars false iMaxBytes) := by
  have length := convertedUnits_length characters
  have size := suffices_.size
  have chars := suffices_.chars
  rw [← length] at size chars
  exact converted_characters (accepted_characters suffices_.notZero)
    suffices_.held size chars (suffices_.bytes.imp_left And.left)

/-- A string in UTF-16 is converted to the bytes it comes from. -/
theorem convertToUTF8_utf16Of
    {back : CLR_RT_UnicodeHelper}
    (notZero : ∀ character ∈ characters, character.toNat ≠ 0)
    (held : Holds memory.utf16 back.m_inputUTF16 (utf16Of characters))
    (size : ((utf8Of characters).length : Int) < back.m_outputUTF8_size) :
    let again := back.ConvertToUTF8 memory (utf16Of characters).length false
    again.1 = true ∧
      Holds again.2.1.utf8 back.m_outputUTF8 (utf8Of characters ++ [0]) := by
  have run : (back.toUTF8 memory (utf16Of characters).length).convert
      memory.utf16 false = _ :=
    ToUTF8.convert_utf16Of notZero held (Int.le_of_lt size) rfl
  have last : ((back.toUTF8 memory (utf16Of characters).length).advance
      (utf16Of characters).length (utf8Of characters)).terminate false =
      .ok
        { (back.toUTF8 memory (utf16Of characters).length).advance
            (utf16Of characters).length (utf8Of characters) with
          utf8 := Function.update
            (writeCells memory.utf8 back.m_outputUTF8 (utf8Of characters))
            (back.m_outputUTF8 + (utf8Of characters).length) 0 } := by
    unfold ToUTF8.terminate
    rw [if_neg Bool.false_ne_true, if_neg]
    · rfl
    · apply Int.not_lt.mpr
      exact Int.le_sub_left_of_add_le size
  intro again
  have result : again =
      (true, back.storeToUTF8 memory
        { (back.toUTF8 memory (utf16Of characters).length).advance
            (utf16Of characters).length (utf8Of characters) with
          utf8 := Function.update
            (writeCells memory.utf8 back.m_outputUTF8 (utf8Of characters))
            (back.m_outputUTF8 + (utf8Of characters).length) 0 }) := by
    dsimp only [again]
    rw [ConvertToUTF8, run]
    dsimp only
    rw [last]
  rw [result]
  refine ⟨rfl, ?_⟩
  rw [holds_append, holds_cons]
  refine ⟨?_, Function.update_self _ _ _, holds_nil⟩
  have written : Holds
      (writeCells memory.utf8 back.m_outputUTF8 (utf8Of characters))
      back.m_outputUTF8 (utf8Of characters) := holds_writeCells
  unfold Holds at written ⊢
  refine Eq.trans (cellsAt_congr ?_) written
  intro place _ below
  exact Function.update_of_ne (by omega) _ _

/-- Only the right units can be converted back. -/
theorem convertedUnits_of_roundTrips
    (suffices_ : Suffices memory helper iMaxChars iMaxBytes characters)
    (roundTrips : RoundTrips memory helper iMaxChars iMaxBytes characters) :
    convertedUnits characters = utf16Of characters := by
  have units := (converted_utf8Of suffices_).output
  have wanted := roundTrips.1
  unfold Holds at units wanted
  rw [convertedUnits_length] at units
  exact units.symm.trans wanted

/-- A memory that starts with a string and its zero. -/
def textMemory (characters : List Char) : TextMemory where
  utf8 := fun address => (utf8Of characters).getD address 0
  utf16 := fun _ => 0

/-- A helper at the start of both memories. -/
def helperAtStart (size : Int) : CLR_RT_UnicodeHelper where
  m_inputUTF8 := 0
  m_inputUTF16 := 0
  m_outputUTF8 := 0
  m_outputUTF8_size := 0
  m_outputUTF16 := 0
  m_outputUTF16_size := size

end CLR_RT_UnicodeHelper

open CLR_RT_UnicodeHelper

/-- A well-formed string is converted to the units of its characters, and these
back to its bytes, exactly when all characters lie in the basic multilingual
plane. -/
theorem utf8_roundTrips_iff
    {memory : TextMemory}
    {helper : CLR_RT_UnicodeHelper}
    {iMaxChars iMaxBytes : Int}
    {characters : List Char}
    (suffices_ : Suffices memory helper iMaxChars iMaxBytes characters) :
    RoundTrips memory helper iMaxChars iMaxBytes characters ↔
      ∀ character ∈ characters, character.toNat < 0x10000 := by
  rw [← convertedUnits_iff]
  constructor
  · exact convertedUnits_of_roundTrips suffices_
  · intro same
    have converted := converted_utf8Of suffices_
    rw [same] at converted
    refine ⟨converted.output, converted.outputEnd, ?_⟩
    intro back input size
    apply convertToUTF8_utf16Of suffices_.notZero
    · rw [input]
      exact converted.output
    · exact size

/-- An accented letter and a sign of currency. -/
theorem utf8_roundTrips_accented :
    RoundTrips (textMemory ['é', '€']) (helperAtStart 3) 2 (-1) ['é', '€'] :=
  (utf8_roundTrips_iff
    { notZero := List.all_iff_forall_prop.mp (by decide)
      held := by exact rfl
      size := by decide
      chars := by decide
      bytes := Or.inl ⟨rfl, by decide⟩ }).mpr
    (List.all_iff_forall_prop.mp (by decide))

/-- An emoji does not survive. -/
theorem utf8_roundTrip_losesEmoji :
    Suffices (textMemory ['😀']) (helperAtStart 3) 2 (-1) ['😀'] ∧
      ¬ RoundTrips (textMemory ['😀']) (helperAtStart 3) 2 (-1) ['😀'] := by
  have suffices_ : Suffices (textMemory ['😀']) (helperAtStart 3) 2 (-1)
      ['😀'] :=
    { notZero := List.all_iff_forall_prop.mp (by decide)
      held := rfl
      size := by decide
      chars := by decide
      bytes := Or.inl ⟨rfl, by decide⟩ }
  refine ⟨suffices_, ?_⟩
  intro roundTrips
  have same := convertedUnits_of_roundTrips suffices_ roundTrips
  exact absurd same (by decide)

end Text

end NanoClr
