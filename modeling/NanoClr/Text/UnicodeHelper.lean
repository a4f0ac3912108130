import NanoClr.Library.Cells

/-!
# The Unicode helper

`CLR_RT_UnicodeHelper` walks over a string in UTF-8 or in UTF-16: it counts,
converts and moves in either direction. Strings end with zero.
-/

namespace NanoClr

namespace Text

/-- The bits of a code point in a surrogate. -/
def SURROGATE_HALFSHIFT : UInt32 := 10

/-- The first code point with surrogates. -/
def SURROGATE_HALFBASE : UInt32 := 0x00010000

/-- The mask of the bits in a surrogate. -/
def SURROGATE_HALFMASK : UInt32 := 0x000003FF

/-- The first high surrogate. -/
def HIGH_SURROGATE_START : UInt32 := 0xD800

/-- The last high surrogate. -/
def HIGH_SURROGATE_END : UInt32 := 0xDBFF

/-- The first low surrogate. -/
def LOW_SURROGATE_START : UInt32 := 0xDC00

/-- The last low surrogate. -/
def LOW_SURROGATE_END : UInt32 := 0xDFFF

/-- The characters of both encodings, by address. -/
structure TextMemory where
  utf8 : Nat → UInt8
  utf16 : Nat → UInt16

/-- The addresses that the helper reads from and writes to, with the room for
what it writes. -/
structure CLR_RT_UnicodeHelper where
  m_inputUTF8 : Nat
  m_inputUTF16 : Nat
  m_outputUTF8 : Nat
  m_outputUTF8_size : Int
  m_outputUTF16 : Nat
  m_outputUTF16_size : Int

/-! ## Bytes -/

/-- What a byte begins. -/
inductive ByteClass where
  | single
  | lowPart
  | two
  | three
  | four
deriving DecidableEq

/-- The cases of `ch & 0xF0`. -/
def byteClass (ch : UInt8) : ByteClass :=
  match (ch &&& 0xF0).toNat with
  | 0x80 | 0x90 | 0xA0 | 0xB0 => .lowPart
  | 0xC0 | 0xD0 => .two
  | 0xE0 => .three
  | 0xF0 => .four
  | _ => .single

/-- `UTF8_BAD_LOWPART`. -/
def UTF8_BAD_LOWPART (ch : UInt8) : Bool := ch < 0x80 || 0xBF < ch

/-- `UTF8_LOAD_LOWPART`. -/
def UTF8_LOAD_LOWPART (ch2 : UInt32) (ch : UInt8) : UInt32 :=
  ch2 <<< 6 ||| (ch.toUInt32 &&& 0x3F)

/-! ## Counting -/

/-- The bytes that follow are checked; there are `count` of them. -/
def checkLowParts (utf8 : Nat → UInt8) (pSrc : Nat) : Nat → Bool
  | 0 => true
  | count + 1 =>
      !UTF8_BAD_LOWPART (utf8 pSrc) && checkLowParts utf8 (pSrc + 1) count

/-- `CountNumberOfCharacters` goes over at most `fuel` characters. -/
def countCharacters (utf8 : Nat → UInt8) :
    Nat → Nat → Int → Int → Option Int
  | 0, _, _, _ => none
  | fuel + 1, pSrc, max, num =>
      let ch := utf8 pSrc
      if ch = 0 then
        some num
      else if max = 0 then
        some num
      else
        let follow (count : Nat) (units : Int) : Option Int :=
          if checkLowParts utf8 (pSrc + 1) count then
            countCharacters utf8 fuel (pSrc + 1 + count) (max - 1) (num + units)
          else
            some (-1)
        match byteClass ch with
        | .single => follow 0 1
        | .lowPart => some (-1)
        | .two => follow 1 1
        | .three => follow 2 1
        | .four => follow 3 2

/-! ## From UTF-8 -/

/-- The variables of `ConvertFromUTF8`, and the memory it writes to. -/
structure FromUTF8 where
  inputUTF8 : Nat
  outputUTF16 : Nat
  outputUTF16_size : Int
  iMaxChars : Int
  iMaxBytes : Int
  utf16 : Nat → UInt16

/-- A character of so many bytes goes to the output, unless the helper just
moves; without room for it the byte that has been read is un-read. -/
def FromUTF8.take
    (fJustMove : Bool)
    (bytes : Nat)
    (units : List UInt16)
    (state : FromUTF8) : Except FromUTF8 FromUTF8 :=
  let moved :=
    { state with
      inputUTF8 := state.inputUTF8 + bytes
      iMaxChars := state.iMaxChars - units.length
      iMaxBytes := state.iMaxBytes - bytes }
  if state.iMaxBytes < bytes then
    .error state
  else if fJustMove then
    .ok moved
  else if state.outputUTF16_size < units.length then
    .error state
  else
    .ok
      { moved with
        outputUTF16 := state.outputUTF16 + units.length
        outputUTF16_size := state.outputUTF16_size - units.length
        utf16 := writeCells state.utf16 state.outputUTF16 units }

/-- What the low parts of a character add to its first bits. -/
def loadLowParts (utf8 : Nat → UInt8) (ch2 : UInt32) (pSrc : Nat) :
    Nat → UInt32
  | 0 => ch2
  | count + 1 =>
      loadLowParts utf8 (UTF8_LOAD_LOWPART ch2 (utf8 pSrc)) (pSrc + 1) count

/-- A character in UTF-16, without its high part being reduced. -/
def surrogates (ch2 : UInt32) : List UInt16 :=
  [((ch2 >>> SURROGATE_HALFSHIFT) + HIGH_SURROGATE_START).toUInt16,
    ((ch2 &&& SURROGATE_HALFMASK) + LOW_SURROGATE_START).toUInt16]

/-- One pass of the loop of `ConvertFromUTF8`; an error is `ExitFalse`. -/
def FromUTF8.convertCharacter
    (utf8 : Nat → UInt8)
    (fJustMove : Bool)
    (state : FromUTF8) : Except FromUTF8 FromUTF8 :=
  let ch := utf8 state.inputUTF8
  let lowParts (mask : UInt32) (count : Nat) : UInt32 :=
    loadLowParts utf8 (ch.toUInt32 &&& mask) (state.inputUTF8 + 1) count
  match byteClass ch with
  | .single =>
      if ch = 0 then .error state
      else state.take fJustMove 1 [ch.toUInt16]
  | .lowPart => .error { state with inputUTF8 := state.inputUTF8 + 1 }
  | .two =>
      if ch < 0xC2 then .error state
      else state.take fJustMove 2 [(lowParts 0x1F 1).toUInt16]
  | .three => state.take fJustMove 3 [(lowParts 0x0F 2).toUInt16]
  | .four =>
      if 0xF5 ≤ ch then .error state
      else state.take fJustMove 4 (surrogates (lowParts 0x07 3))

theorem FromUTF8.take_iMaxBytes
    {fJustMove : Bool}
    {bytes : Nat}
    {units : List UInt16}
    {state next : FromUTF8}
    (taken : state.take fJustMove bytes units = .ok next) :
    next.iMaxBytes = state.iMaxBytes - bytes := by
  unfold FromUTF8.take at taken
  dsimp only at taken
  split at taken
  · cases taken
  · split at taken
    · cases taken
      rfl
    · split at taken
      · cases taken
      · cases taken
        rfl

theorem FromUTF8.convertCharacter_iMaxBytes
    {utf8 : Nat → UInt8}
    {fJustMove : Bool}
    {state next : FromUTF8}
    (converted : state.convertCharacter utf8 fJustMove = .ok next) :
    next.iMaxBytes < state.iMaxBytes := by
  unfold FromUTF8.convertCharacter at converted
  dsimp only at converted
  split at converted
  case h_1 =>
    split at converted
    · cases converted
    · have taken := take_iMaxBytes converted
      omega
  case h_2 => cases converted
  case h_3 =>
    split at converted
    · cases converted
    · have taken := take_iMaxBytes converted
      omega
  case h_4 =>
    have taken := take_iMaxBytes converted
    omega
  case h_5 =>
    split at converted
    · cases converted
    · have taken := take_iMaxBytes converted
      omega

/-- The loop of `ConvertFromUTF8`. -/
def FromUTF8.convert
    (utf8 : Nat → UInt8)
    (fJustMove : Bool)
    (state : FromUTF8) : Except FromUTF8 FromUTF8 :=
  if 0 < state.iMaxChars ∧ 0 < state.iMaxBytes then
    match _h : state.convertCharacter utf8 fJustMove with
    | .error exited => .error exited
    | .ok next => next.convert utf8 fJustMove
  else
    .ok state
termination_by state.iMaxBytes.toNat
decreasing_by
  have less := convertCharacter_iMaxBytes _h
  omega

/-- The zero behind the output. -/
def FromUTF8.terminate (fJustMove : Bool) (state : FromUTF8) :
    Except FromUTF8 FromUTF8 :=
  if fJustMove then
    .ok state
  else if state.outputUTF16_size < 1 then
    .error state
  else
    .ok { state with utf16 := Function.update state.utf16 state.outputUTF16 0 }

/-! ## To UTF-8 -/

/-- The variables of `ConvertToUTF8`, and the memory it writes to. -/
structure ToUTF8 where
  inputUTF16 : Nat
  outputUTF8 : Nat
  outputUTF8_size : Int
  iMaxChars : Int
  utf8 : Nat → UInt8

/-- The bytes of a character of which so many units have been read. -/
def ToUTF8.take
    (fJustMove : Bool)
    (units : Nat)
    (bytes : List UInt8)
    (state : ToUTF8) : Except ToUTF8 ToUTF8 :=
  let read := { state with inputUTF16 := state.inputUTF16 + units }
  if fJustMove then
    .ok { read with iMaxChars := state.iMaxChars - units }
  else if state.outputUTF8_size < bytes.length then
    .error read
  else
    .ok
      { read with
        iMaxChars := state.iMaxChars - units
        outputUTF8 := state.outputUTF8 + bytes.length
        outputUTF8_size := state.outputUTF8_size - bytes.length
        utf8 := writeCells state.utf8 state.outputUTF8 bytes }

/-- Bits of a character behind a mark. -/
def marked (mark mask ch : UInt32) : UInt8 := (mark ||| (ch &&& mask)).toUInt8

/-- How a pass of the loop of `ConvertToUTF8` ends: with `break` at the zero, at
`ExitFalse`, or before the next character. -/
inductive ToUTF8.Pass where
  | finished (state : ToUTF8)
  | taken (state : Except ToUTF8 ToUTF8)

/-- One pass of the loop of `ConvertToUTF8`. -/
def ToUTF8.convertCharacter
    (utf16 : Nat → UInt16)
    (fJustMove : Bool)
    (state : ToUTF8) : ToUTF8.Pass :=
  let ch := (utf16 state.inputUTF16).toUInt32
  if ch < 0x0080 then
    if ch = 0 then
      .finished { state with inputUTF16 := state.inputUTF16 + 1 }
    else
      .taken (state.take fJustMove 1 [ch.toUInt8])
  else if ch < 0x0800 then
    .taken (state.take fJustMove 1
      [marked 0xC0 0x1F (ch >>> 6), marked 0x80 0x3F ch])
  else if HIGH_SURROGATE_START ≤ ch ∧ ch ≤ HIGH_SURROGATE_END then
    let ch := SURROGATE_HALFBASE +
      ((ch - HIGH_SURROGATE_START) <<< SURROGATE_HALFSHIFT) +
      ((utf16 (state.inputUTF16 + 1)).toUInt32 - LOW_SURROGATE_START)
    .taken (state.take fJustMove 2
      [marked 0xF0 0x07 (ch >>> 6 >>> 6 >>> 6),
        marked 0x80 0x3F (ch >>> 6 >>> 6), marked 0x80 0x3F (ch >>> 6),
        marked 0x80 0x3F ch])
  else
    .taken (state.take fJustMove 1
      [marked 0xE0 0x0F (ch >>> 6 >>> 6), marked 0x80 0x3F (ch >>> 6),
        marked 0x80 0x3F ch])

theorem ToUTF8.take_iMaxChars
    {fJustMove : Bool}
    {units : Nat}
    {bytes : List UInt8}
    {state next : ToUTF8}
    (taken : state.take fJustMove units bytes = .ok next) :
    next.iMaxChars = state.iMaxChars - units := by
  unfold ToUTF8.take at taken
  dsimp only at taken
  split at taken
  · cases taken
    rfl
  · split at taken
    · cases taken
    · cases taken
      rfl

theorem ToUTF8.convertCharacter_iMaxChars
    {utf16 : Nat → UInt16}
    {fJustMove : Bool}
    {state next : ToUTF8}
    (converted : state.convertCharacter utf16 fJustMove = .taken (.ok next)) :
    next.iMaxChars < state.iMaxChars := by
  unfold ToUTF8.convertCharacter at converted
  dsimp only at converted
  split at converted
  · split at converted
    · cases converted
    · have taken := take_iMaxChars (ToUTF8.Pass.taken.inj converted)
      omega
  · split at converted
    · have taken := take_iMaxChars (ToUTF8.Pass.taken.inj converted)
      omega
    · split at converted
      · have taken := take_iMaxChars (ToUTF8.Pass.taken.inj converted)
        omega
      · have taken := take_iMaxChars (ToUTF8.Pass.taken.inj converted)
        omega

/-- The loop of `ConvertToUTF8`. -/
def ToUTF8.convert
    (utf16 : Nat → UInt16)
    (fJustMove : Bool)
    (state : ToUTF8) : Except ToUTF8 ToUTF8 :=
  if 0 < state.iMaxChars then
    match _h : state.convertCharacter utf16 fJustMove with
    | .finished state => .ok state
    | .taken (.error exited) => .error exited
    | .taken (.ok next) => next.convert utf16 fJustMove
  else
    .ok state
termination_by state.iMaxChars.toNat
decreasing_by
  have less := convertCharacter_iMaxChars _h
  omega

/-- The zero behind the output. -/
def ToUTF8.terminate (fJustMove : Bool) (state : ToUTF8) :
    Except ToUTF8 ToUTF8 :=
  if fJustMove then
    .ok state
  else if state.outputUTF8_size < 1 then
    .error state
  else
    .ok { state with utf8 := Function.update state.utf8 state.outputUTF8 0 }

namespace CLR_RT_UnicodeHelper

/-- `CountNumberOfCharacters`; without a maximum it is given -1. -/
def CountNumberOfCharacters
    (fuel : Nat)
    (memory : TextMemory)
    (max : Int)
    (helper : CLR_RT_UnicodeHelper) : Option Int :=
  countCharacters memory.utf8 fuel helper.m_inputUTF8 max 0

/-- The most characters whose bytes, three for each, an `int` can count. -/
def mostChars : Int := 715827882

/-- The variables of `ConvertFromUTF8` at first.  The bytes are counted by an
`int`, so that what is said of them is for at most `mostChars` characters. -/
def fromUTF8
    (memory : TextMemory)
    (iMaxChars iMaxBytes : Int)
    (helper : CLR_RT_UnicodeHelper) : FromUTF8 where
  inputUTF8 := helper.m_inputUTF8
  outputUTF16 := helper.m_outputUTF16
  outputUTF16_size := helper.m_outputUTF16_size
  iMaxChars := iMaxChars
  iMaxBytes := if iMaxBytes = -1 then iMaxChars * 3 else iMaxBytes
  utf16 := memory.utf16

/-- The helper and the memory once the variables are stored. -/
def storeFromUTF8
    (memory : TextMemory)
    (helper : CLR_RT_UnicodeHelper)
    (state : FromUTF8) : TextMemory × CLR_RT_UnicodeHelper :=
  ({ memory with utf16 := state.utf16 },
    { helper with
      m_inputUTF8 := state.inputUTF8
      m_outputUTF16 := state.outputUTF16
      m_outputUTF16_size := state.outputUTF16_size })

/-- `ConvertFromUTF8`: characters are converted, or just passed over, and the
zero comes behind them. -/
def ConvertFromUTF8
    (memory : TextMemory)
    (iMaxChars : Int)
    (fJustMove : Bool)
    (iMaxBytes : Int)
    (helper : CLR_RT_UnicodeHelper) :
    Bool × TextMemory × CLR_RT_UnicodeHelper :=
  match (helper.fromUTF8 memory iMaxChars iMaxBytes).convert memory.utf8
      fJustMove with
  | .error exited => (false, helper.storeFromUTF8 memory exited)
  | .ok state =>
      match state.terminate fJustMove with
      | .error exited => (false, helper.storeFromUTF8 memory exited)
      | .ok state => (true, helper.storeFromUTF8 memory state)

/-- The variables of `ConvertToUTF8` at first. -/
def toUTF8
    (memory : TextMemory)
    (iMaxChars : Int)
    (helper : CLR_RT_UnicodeHelper) : ToUTF8 where
  inputUTF16 := helper.m_inputUTF16
  outputUTF8 := helper.m_outputUTF8
  outputUTF8_size := helper.m_outputUTF8_size
  iMaxChars := iMaxChars
  utf8 := memory.utf8

/-- The memory and the helper after a conversion to UTF-8. -/
def storeToUTF8
    (memory : TextMemory)
    (helper : CLR_RT_UnicodeHelper)
    (state : ToUTF8) : TextMemory × CLR_RT_UnicodeHelper :=
  ({ memory with utf8 := state.utf8 },
    { helper with
      m_inputUTF16 := state.inputUTF16
      m_outputUTF8 := state.outputUTF8
      m_outputUTF8_size := state.outputUTF8_size })

/-- `ConvertToUTF8`: characters are converted, or just passed over, and the zero
comes behind them. -/
def ConvertToUTF8
    (memory : TextMemory)
    (iMaxChars : Int)
    (fJustMove : Bool)
    (helper : CLR_RT_UnicodeHelper) :
    Bool × TextMemory × CLR_RT_UnicodeHelper :=
  match (helper.toUTF8 memory iMaxChars).convert memory.utf16 fJustMove with
  | .error exited => (false, helper.storeToUTF8 memory exited)
  | .ok state =>
      match state.terminate fJustMove with
      | .error exited => (false, helper.storeToUTF8 memory exited)
      | .ok state => (true, helper.storeToUTF8 memory state)

/-! ## Backward -/

/-- Whether `MoveBackwardInUTF8` counts a byte as the start of a character. A
`char` is a signed byte for some compilers. -/
def countsAsStart (charIsSigned : Bool) (current : UInt8) : Bool :=
  let current : BitVec 32 :=
    if charIsSigned then current.toBitVec.signExtend 32
    else current.toBitVec.zeroExtend 32
  (current &&& 0x10000000) == 0x00000000 ||
    (current &&& 0x11000000) == 0x11000000

/-- The loop of `MoveBackwardInUTF8`; the input is `distance` bytes behind the
start of the string. -/
def moveBackward
    (charIsSigned : Bool)
    (utf8 : Nat → UInt8)
    (utf8StringStart : Nat) : Nat → Int → Bool × Nat
  | 0, _ => (false, utf8StringStart)
  | distance + 1, iMaxChars =>
      let current := utf8 (utf8StringStart + distance)
      let iMaxChars :=
        if countsAsStart charIsSigned current then iMaxChars - 1 else iMaxChars
      if iMaxChars = 0 then
        (true, utf8StringStart + distance)
      else
        moveBackward charIsSigned utf8 utf8StringStart distance iMaxChars

/-- `MoveBackwardInUTF8`: the helper goes back by some characters, but not
beyond the start. -/
def MoveBackwardInUTF8
    (charIsSigned : Bool)
    (memory : TextMemory)
    (utf8StringStart : Nat)
    (iMaxChars : Int)
    (helper : CLR_RT_UnicodeHelper) : Bool × CLR_RT_UnicodeHelper :=
  if helper.m_inputUTF8 ≤ utf8StringStart ∨ iMaxChars < 1 then
    (false, helper)
  else
    let moved := moveBackward charIsSigned memory.utf8 utf8StringStart
      (helper.m_inputUTF8 - utf8StringStart) iMaxChars
    (moved.1, { helper with m_inputUTF8 := moved.2 })

end CLR_RT_UnicodeHelper

/-! ## Strings in UTF-16 -/

/-- What `UnicodeString::Assign` gives: the array and its length, unless it
fails. -/
inductive Assigned where
  | CLR_E_INVALID_PARAMETER
  | CLR_E_OUT_OF_MEMORY
  | S_OK (memory : TextMemory) (m_wCharArray : Nat) (m_length : Int)

open CLR_RT_UnicodeHelper in
/-- `UnicodeString::Assign`; the memory that can be allocated is an argument. -/
def Assign
    (fuel : Nat)
    (memory : TextMemory)
    (string : Nat)
    (allocated : Option Nat)
    (m_unicodeHelper : CLR_RT_UnicodeHelper) : Option Assigned :=
  let m_unicodeHelper := { m_unicodeHelper with m_inputUTF8 := string }
  (m_unicodeHelper.CountNumberOfCharacters fuel memory (-1)).map fun m_length =>
    if m_length < 0 then
      .CLR_E_INVALID_PARAMETER
    else
      match allocated with
      | none => .CLR_E_OUT_OF_MEMORY
      | some m_wCharArray =>
          let m_unicodeHelper :=
            { m_unicodeHelper with
              m_outputUTF16 := m_wCharArray
              m_outputUTF16_size := m_length + 1 }
          let (_, memory, _) :=
            m_unicodeHelper.ConvertFromUTF8 memory m_length false (-1)
          .S_OK
            { memory with
              utf16 :=
                Function.update memory.utf16 (m_wCharArray + m_length.toNat) 0 }
            m_wCharArray m_length

end Text

end NanoClr
