import NanoClr.Library.TransitionSystem
import NanoClr.Text.CharArrays

/-!
# Decoding in chunks

`UTF8Decoder.Convert` converts some of the bytes of an array to some of the
characters of another and reports how many it has used. A decoder goes on at
the byte behind those that were reported.
-/

namespace NanoClr

namespace Text

open Arrays CLR_RT_UnicodeHelper

/-! ## The call -/

/-- An array of bytes or of characters. Its length fits a `CLR_INT32`. -/
structure ElementArray where
  elements : Nat
  m_numOfElements : Nat
  fits : m_numOfElements < 2 ^ 31

/-- The address of an element. -/
def ElementArray.GetElement (array : ElementArray) (index : Int) : Nat :=
  array.elements + index.toNat

/-- The arguments of `Convert`. -/
structure ConvertArguments where
  pArrayBytes : Option ElementArray
  byteIndex : Int
  byteCount : Int
  pArrayChars : Option ElementArray
  charIndex : Int
  charCount : Int

/-- What `Convert` reports, and the memory it leaves. -/
structure ConvertReport where
  memory : TextMemory
  byteUsed : Int
  charUsed : Int
  completed : Bool

/-- `DecoderConvert`: bytes are converted as long as characters fit, and the
numbers of both are returned. -/
def Convert (memory : TextMemory) (arguments : ConvertArguments) :
    CallResult ConvertReport :=
  match arguments.pArrayBytes with
  | none => .failed .CLR_E_NULL_REFERENCE
  | some pArrayBytes =>
      match arguments.pArrayChars with
      | none => .failed .CLR_E_NULL_REFERENCE
      | some pArrayChars =>
          if arguments.byteIndex < 0 ∨ arguments.byteCount < 0 ∨
              arguments.charIndex < 0 ∨ arguments.charCount < 0 ∨
              pArrayBytes.m_numOfElements - arguments.byteIndex <
                arguments.byteCount ∨
              pArrayChars.m_numOfElements - arguments.charIndex <
                arguments.charCount then
            .failed .CLR_E_INVALID_PARAMETER
          else
            let byteStart := pArrayBytes.GetElement arguments.byteIndex
            let uh : CLR_RT_UnicodeHelper :=
              { m_inputUTF8 := byteStart
                m_inputUTF16 := 0
                m_outputUTF8 := 0
                m_outputUTF8_size := 0
                m_outputUTF16 := pArrayChars.GetElement arguments.charIndex
                m_outputUTF16_size := arguments.charCount }
            let converted := uh.ConvertFromUTF8 memory arguments.charCount
              false arguments.byteCount
            let uh := converted.2.2
            let byteUsed : Int := uh.m_inputUTF8 - byteStart
            .S_OK
              { memory := converted.2.1
                byteUsed := byteUsed
                charUsed := arguments.charCount - uh.m_outputUTF16_size
                completed := byteUsed == arguments.byteCount }

/-! ## Decoders -/

/-- A well-formed array of bytes. -/
structure Utf8Array where
  array : ElementArray
  utf8 : Nat → UInt8
  characters : List Char
  numOfElements : array.m_numOfElements = (utf8Of characters).length
  held : Holds utf8 array.elements (utf8Of characters)

/-- A decoder is at a byte of the array; it has produced some units. -/
structure Decoder where
  byteIndex : Int
  utf16 : Nat → UInt16
  produced : List UInt16

namespace Utf8Array

/-- The arguments of a call that goes on where the decoder is. -/
def resume
    (input : Utf8Array)
    (decoder : Decoder)
    (byteCount : Int)
    (pArrayChars : ElementArray)
    (charIndex charCount : Int) : ConvertArguments where
  pArrayBytes := some input.array
  byteIndex := decoder.byteIndex
  byteCount := byteCount
  pArrayChars := some pArrayChars
  charIndex := charIndex
  charCount := charCount

/-- A call that goes on where the decoder is, and its report. -/
def Reports
    (input : Utf8Array)
    (decoder : Decoder)
    (byteCount : Int)
    (pArrayChars : ElementArray)
    (charIndex charCount : Int)
    (report : ConvertReport) : Prop :=
  Convert ⟨input.utf8, decoder.utf16⟩
      (input.resume decoder byteCount pArrayChars charIndex charCount) =
    .S_OK report

/-- A decoder goes on behind the bytes that a call has used, and a program may
write to its arrays of characters between the calls. -/
inductive Step (input : Utf8Array) : Decoder → Decoder → Prop where
  | convert
      {decoder : Decoder}
      {byteCount : Int}
      {pArrayChars : ElementArray}
      {charIndex charCount : Int}
      {report : ConvertReport}
      (reports : input.Reports decoder byteCount pArrayChars charIndex charCount
        report) :
      Step input decoder
        { byteIndex := decoder.byteIndex + report.byteUsed
          utf16 := report.memory.utf16
          produced := decoder.produced ++
            cellsAt report.memory.utf16 (pArrayChars.GetElement charIndex)
              report.charUsed.toNat }
  | write (decoder : Decoder) (utf16 : Nat → UInt16) :
      Step input decoder { decoder with utf16 := utf16 }

/-- A decoder at the start of the array. -/
def Initial (decoder : Decoder) : Prop :=
  decoder.byteIndex = 0 ∧ decoder.produced = []

/-- The decoders that sequences of calls lead to. -/
def Reached (input : Utf8Array) : Decoder → Prop :=
  Reachable Initial input.Step

/-- A call has used and written no more than it was given. -/
structure StaysInside
    (input : Utf8Array)
    (decoder : Decoder)
    (byteCount : Int)
    (pArrayChars : ElementArray)
    (charIndex charCount : Int)
    (report : ConvertReport) : Prop where
  bytes : 0 ≤ report.byteUsed ∧ report.byteUsed ≤ byteCount
  chars : 0 ≤ report.charUsed ∧ report.charUsed ≤ charCount
  reads : ∀ utf8 : Nat → UInt8,
    (∀ place : Nat,
      (input.array.elements : Int) + decoder.byteIndex ≤ place →
        place < input.array.elements + decoder.byteIndex + byteCount →
          utf8 place = input.utf8 place) →
      Convert ⟨utf8, decoder.utf16⟩
          (input.resume decoder byteCount pArrayChars charIndex charCount) =
        .S_OK { report with memory := ⟨utf8, report.memory.utf16⟩ }
  writes : ∀ place : Nat,
    ((place : Int) < pArrayChars.elements + charIndex ∨
      pArrayChars.elements + charIndex + charCount ≤ place) →
        report.memory.utf16 place = decoder.utf16 place
  keeps : report.memory.utf8 = input.utf8

/-- The bytes that are given begin with those of a whole character. -/
def BeginsWith
    (input : Utf8Array)
    (byteIndex byteCount : Int)
    (character : Char) : Prop :=
  ∃ before after,
    input.characters = before ++ character :: after ∧
      byteIndex = (utf8Of before).length ∧
      ((String.utf8EncodeChar character).length : Int) ≤ byteCount

/-- Whatever the sizes of the chunks, the decoder produces the units of the
array, it stays inside what it is given, and it goes on. -/
structure DecodesInChunks (input : Utf8Array) : Prop where
  produces : ∀ decoder, input.Reached decoder →
    decoder.produced <+: utf16Of input.characters
  staysInside : ∀ decoder byteCount pArrayChars charIndex charCount report,
    input.Reached decoder →
    input.Reports decoder byteCount pArrayChars charIndex charCount report →
    input.StaysInside decoder byteCount pArrayChars charIndex charCount report
  goesOn : ∀ decoder byteCount pArrayChars charIndex charCount report,
    input.Reached decoder →
    input.Reports decoder byteCount pArrayChars charIndex charCount report →
    ∀ character, input.BeginsWith decoder.byteIndex byteCount character →
    2 ≤ charCount →
    0 < report.byteUsed

/-- A decoder that stands behind some characters and has produced their units,
as long as these lie in the basic multilingual plane. -/
structure ProducesUpTo (input : Utf8Array) (before : List Char)
    (decoder : Decoder) : Prop where
  begins : before <+: input.characters
  byteIndex : decoder.byteIndex = (utf8Of before).length
  produced : (∀ character ∈ before, character.toNat < 0x10000) →
    decoder.produced = utf16Of before

/-- Whatever the sizes of the chunks, the decoder produces the units of the
characters it has gone over, it stays inside what it is given, and it goes on
up to a zero, where it stops. -/
structure DecodesUpToZero (input : Utf8Array) : Prop where
  produces : ∀ decoder, input.Reached decoder →
    ∃ before, input.ProducesUpTo before decoder
  staysInside : ∀ decoder byteCount pArrayChars charIndex charCount report,
    input.Reached decoder →
    input.Reports decoder byteCount pArrayChars charIndex charCount report →
    input.StaysInside decoder byteCount pArrayChars charIndex charCount report
  goesOn : ∀ decoder byteCount pArrayChars charIndex charCount report,
    input.Reached decoder →
    input.Reports decoder byteCount pArrayChars charIndex charCount report →
    ∀ character, input.BeginsWith decoder.byteIndex byteCount character →
    2 ≤ charCount →
    (0 < report.byteUsed ↔ character.toNat ≠ 0)

end Utf8Array

/-! ## Texts -/

theorem utf8Of_append (first second : List Char) :
    utf8Of (first ++ second) = utf8Of first ++ utf8Of second :=
  List.flatMap_append

theorem utf16Of_append (first second : List Char) :
    utf16Of (first ++ second) = utf16Of first ++ utf16Of second :=
  List.flatMap_append

theorem utf8Of_cons (character : Char) (characters : List Char) :
    utf8Of (character :: characters) =
      String.utf8EncodeChar character ++ utf8Of characters :=
  List.flatMap_cons

theorem convertedUnits_cons (character : Char) (characters : List Char) :
    convertedUnits (character :: characters) =
      unitsOf (String.utf8EncodeChar character) ++
        convertedUnits characters :=
  List.flatMap_cons

/-! ## One walk -/

namespace FromUTF8

variable {utf8 other : Nat → UInt8} {fJustMove : Bool} {state : FromUTF8}

/-- The bytes that a walk may read are the same. -/
def SameBytes (utf8 other : Nat → UInt8) (state : FromUTF8) : Prop :=
  ∀ place : Nat, state.inputUTF8 ≤ place →
    (place : Int) < state.inputUTF8 + state.iMaxBytes →
      other place = utf8 place

theorem loadLowParts_congr
    {ch2 : UInt32}
    {pSrc count : Nat}
    (same : ∀ place, pSrc ≤ place → place < pSrc + count →
      other place = utf8 place) :
    loadLowParts other ch2 pSrc count = loadLowParts utf8 ch2 pSrc count := by
  induction count generalizing ch2 pSrc with
  | zero => rfl
  | succ count inductionHypothesis =>
      rw [loadLowParts, loadLowParts, same pSrc (Nat.le_refl _) (by omega)]
      apply inductionHypothesis
      intro place from_ below
      exact same place (by omega) (by omega)

/-- The low parts of a character are read once its bytes are there. -/
theorem take_lowParts_congr
    {ch2 : UInt32}
    {count : Nat}
    (same : SameBytes utf8 other state)
    (units : UInt32 → List UInt16) :
    state.take fJustMove (count + 1)
        (units (loadLowParts other ch2 (state.inputUTF8 + 1) count)) =
      state.take fJustMove (count + 1)
        (units (loadLowParts utf8 ch2 (state.inputUTF8 + 1) count)) := by
  by_cases short : state.iMaxBytes < ((count + 1 : Nat) : Int)
  · rw [take_short short, take_short short]
  · rw [loadLowParts_congr]
    intro place from_ below
    exact same place (by omega) (by omega)

theorem convertCharacter_congr
    (same : SameBytes utf8 other state)
    (left : 0 < state.iMaxBytes) :
    state.convertCharacter other fJustMove =
      state.convertCharacter utf8 fJustMove := by
  unfold convertCharacter
  dsimp only
  rw [same state.inputUTF8 (Nat.le_refl _) (by omega)]
  generalize utf8 state.inputUTF8 = ch
  cases byteClass ch with
  | single => rfl
  | lowPart => rfl
  | two =>
      dsimp only
      rw [take_lowParts_congr same fun value => [value.toUInt16]]
  | three =>
      exact take_lowParts_congr same fun value => [value.toUInt16]
  | four =>
      dsimp only
      rw [take_lowParts_congr same surrogates]

/-- A walk depends on the bytes that it is given. -/
theorem convert_congr (same : SameBytes utf8 other state) :
    state.convert other fJustMove = state.convert utf8 fJustMove := by
  induction state using FromUTF8.convert.induct utf8 fJustMove with
  | case1 state inside exited stopped =>
      rw [convert_exit inside stopped, convert_exit inside]
      rw [convertCharacter_congr same inside.2, stopped]
  | case2 state inside next passed inductionHypothesis =>
      rw [convert_step inside passed, convert_step inside
        ((convertCharacter_congr same inside.2).trans passed)]
      apply inductionHypothesis
      obtain ⟨character, _, _, isNext⟩ := convertCharacter_ok passed
      intro place from_ below
      rw [isNext, inputUTF8_advance] at from_
      rw [isNext, inputUTF8_advance, iMaxBytes_advance] at below
      exact same place (by omega) (by omega)
  | case3 state outside =>
      rw [convert_done outside, convert_done outside]

/-- The state in which `ConvertFromUTF8` ends. -/
def finish (utf8 : Nat → UInt8) (state : FromUTF8) : FromUTF8 :=
  final ((state.convert utf8 false).bind fun state => state.terminate false)

theorem finish_congr (same : SameBytes utf8 other state) :
    state.finish other = state.finish utf8 := by
  unfold finish
  rw [convert_congr same]

/-- The zero is written behind what has been converted. -/
theorem finish_eq (utf8 : Nat → UInt8) (state : FromUTF8) :
    ∃ utf16 : Nat → UInt16,
      state.finish utf8 =
          { final (state.convert utf8 false) with utf16 := utf16 } ∧
        ∀ place, place < (final (state.convert utf8 false)).outputUTF16 →
          utf16 place = (final (state.convert utf8 false)).utf16 place := by
  unfold finish
  cases state.convert utf8 false with
  | error exited => exact ⟨exited.utf16, rfl, fun _ _ => rfl⟩
  | ok walked =>
      rw [Except.bind]
      dsimp only
      unfold terminate
      rw [if_neg Bool.false_ne_true]
      split
      · exact ⟨walked.utf16, rfl, fun _ _ => rfl⟩
      · refine ⟨_, rfl, ?_⟩
        intro place before
        exact Function.update_of_ne (Nat.ne_of_lt before) _ _

theorem bounded_finish (utf8 : Nat → UInt8) (state : FromUTF8) :
    Bounded state (state.finish utf8) := by
  have walk : Bounded state (final (state.convert utf8 false)) :=
    bounded_convert
  unfold finish
  cases run : state.convert utf8 false with
  | error exited =>
      rw [run] at walk
      exact walk
  | ok walked =>
      rw [run] at walk
      exact walk.trans bounded_terminate

/-- A pass over a character for which there is no room. -/
theorem take_full
    {bytes : Nat}
    {units : List UInt16}
    (full : state.outputUTF16_size < units.length) :
    state.take false bytes units = .error state := by
  unfold take
  dsimp only
  rw [if_neg Bool.false_ne_true, if_pos full, ite_self]

/-- What a walk over some characters has taken of them. -/
structure Takes
    (characters taken : List Char)
    (state walked : FromUTF8) : Prop where
  begins : taken <+: characters
  walks : walked = state.advance false (utf8Of taken).length
    (convertedUnits taken)
  bytes : ((utf8Of taken).length : Int) ≤ state.iMaxBytes
  chars : ((convertedUnits taken).length : Int) ≤ state.outputUTF16_size
  goesOn : ∀ character ∈ characters.head?,
    ((String.utf8EncodeChar character).length : Int) ≤ state.iMaxBytes →
      2 ≤ state.outputUTF16_size → (taken ≠ [] ↔ character.toNat ≠ 0)

/-- A walk that has not taken any character. -/
theorem takes_nothing
    {characters : List Char}
    (stopped : final (state.convert utf8 false) = state)
    (chars : state.iMaxChars = state.outputUTF16_size)
    (least : 0 ≤ state.iMaxChars ∧ 0 ≤ state.iMaxBytes)
    (short : ∀ character ∈ characters.head?,
      ((String.utf8EncodeChar character).length : Int) ≤ state.iMaxBytes →
        2 ≤ state.outputUTF16_size → character.toNat = 0) :
    Takes characters [] state (final (state.convert utf8 false)) where
  begins := List.nil_prefix
  walks := by
    rw [stopped]
    exact advance_none.symm
  bytes := least.2
  chars := by
    rw [← chars]
    exact least.1
  goesOn := by
    intro character first bytes room
    apply iff_of_false
    · exact fun some_ => some_ rfl
    · exact fun notZero => notZero (short character first bytes room)

/-- A walk that has taken a character and goes on. -/
theorem Takes.cons
    {character : Char}
    {characters taken : List Char}
    {walked : FromUTF8}
    (notZero : character.toNat ≠ 0)
    (takes : Takes characters taken
      (state.advance false (String.utf8EncodeChar character).length
        (unitsOf (String.utf8EncodeChar character))) walked) :
    Takes (character :: characters) (character :: taken) state walked where
  begins := List.cons_prefix_cons.mpr ⟨rfl, takes.begins⟩
  walks := by
    rw [takes.walks, advance_advance, utf8Of_cons, convertedUnits_cons,
      List.length_append]
  bytes := by
    have bytes := takes.bytes
    rw [iMaxBytes_advance] at bytes
    rw [utf8Of_cons, List.length_append]
    omega
  chars := by
    have chars := takes.chars
    change _ ≤ state.outputUTF16_size -
      ((unitsOf (String.utf8EncodeChar character)).length : Int) at chars
    rw [convertedUnits_cons, List.length_append]
    omega
  goesOn := by
    intro first isFirst _ _
    cases isFirst
    exact iff_of_true (List.cons_ne_nil _ _) notZero

/-- A walk that may go on stops before a character that a pass does not
take. -/
theorem final_of_pass
    (pass : state.convertCharacter utf8 false = .error state) :
    final (state.convert utf8 false) = state := by
  by_cases inside : 0 < state.iMaxChars ∧ 0 < state.iMaxBytes
  · rw [convert_exit inside pass]
    rfl
  · rw [convert_done inside]
    rfl

/-- A walk takes characters until the next one does not fit or is a zero. -/
theorem takes_convert
    {characters : List Char}
    (held : Holds utf8 state.inputUTF8 (utf8Of characters))
    (chars : state.iMaxChars = state.outputUTF16_size)
    (least : 0 ≤ state.iMaxChars ∧ 0 ≤ state.iMaxBytes)
    (most : state.iMaxBytes ≤ (utf8Of characters).length) :
    ∃ taken, Takes characters taken state
      (final (state.convert utf8 false)) := by
  induction characters generalizing state with
  | nil =>
      have empty : (utf8Of []).length = 0 := rfl
      refine ⟨[], takes_nothing ?_ chars least ?_⟩
      · rw [convert_done (by omega)]
        rfl
      · intro character first
        cases first
  | cons character characters inductionHypothesis =>
      rw [utf8Of_cons, holds_append] at held
      rw [utf8Of_cons, List.length_append] at most
      by_cases zero : character.toNat = 0
      · refine ⟨[], takes_nothing (final_of_pass ?_) chars least ?_⟩
        · apply convertCharacter_zero
          have bytes := held.1
          rw [utf8EncodeChar_one (by omega), zero, holds_cons] at bytes
          exact bytes.1
        · intro first isFirst _ _
          cases isFirst
          exact zero
      have accepted := accepted_utf8EncodeChar zero
      have someBytes := accepted_length_pos accepted
      have someUnits := unitsOf_length_pos accepted
      have fewUnits := unitsOf_length_le_two accepted
      have pass : state.convertCharacter utf8 false = _ :=
        convertCharacter_accepted accepted held.1
      by_cases bytes : state.iMaxBytes <
          ((String.utf8EncodeChar character).length : Int)
      · refine ⟨[], takes_nothing (final_of_pass (pass.trans
          (take_short bytes))) chars least ?_⟩
        intro first isFirst enough
        cases isFirst
        omega
      by_cases room : state.outputUTF16_size <
          ((unitsOf (String.utf8EncodeChar character)).length : Int)
      · refine ⟨[], takes_nothing (final_of_pass (pass.trans
          (take_full room))) chars least ?_⟩
        intro first isFirst enough
        omega
      have taken := pass.trans (take_eq (Or.inr (Int.not_lt.mp room))
        (Int.not_lt.mp bytes))
      rw [convert_step (by omega) taken]
      generalize isNext :
        state.advance false (String.utf8EncodeChar character).length
          (unitsOf (String.utf8EncodeChar character)) = next
      have rest : ∃ more, Takes characters more next
          (final (next.convert utf8 false)) := by
        rw [← isNext]
        apply inductionHypothesis
        · rw [inputUTF8_advance]
          exact held.2
        · rw [iMaxChars_advance, chars]
          rfl
        · rw [iMaxChars_advance, iMaxBytes_advance]
          omega
        · rw [iMaxBytes_advance]
          omega
      obtain ⟨more, takes⟩ := rest
      rw [← isNext] at takes
      exact ⟨character :: more, by rw [← isNext]; exact takes.cons zero⟩

end FromUTF8

/-! ## One call -/

namespace Utf8Array

variable
  {input : Utf8Array}
  {decoder : Decoder}
  {byteCount : Int}
  {pArrayChars : ElementArray}
  {charIndex charCount : Int}
  {report : ConvertReport}

/-- The arguments that `Convert` accepts. -/
structure InRange
    (input : Utf8Array)
    (decoder : Decoder)
    (byteCount : Int)
    (pArrayChars : ElementArray)
    (charIndex charCount : Int) : Prop where
  bytesFrom : 0 ≤ decoder.byteIndex
  someBytes : 0 ≤ byteCount
  charsFrom : 0 ≤ charIndex
  someChars : 0 ≤ charCount
  bytes : decoder.byteIndex + byteCount ≤ input.array.m_numOfElements
  chars : charIndex + charCount ≤ pArrayChars.m_numOfElements

/-- The variables of a call at first. -/
def start
    (input : Utf8Array)
    (decoder : Decoder)
    (byteCount : Int)
    (pArrayChars : ElementArray)
    (charIndex charCount : Int) : FromUTF8 where
  inputUTF8 := input.array.GetElement decoder.byteIndex
  outputUTF16 := pArrayChars.GetElement charIndex
  outputUTF16_size := charCount
  iMaxChars := charCount
  iMaxBytes := byteCount
  utf16 := decoder.utf16

/-- The report of a call that starts and ends with these variables. -/
def reportOf
    (utf8 : Nat → UInt8)
    (byteCount charCount : Int)
    (start last : FromUTF8) : ConvertReport where
  memory := ⟨utf8, last.utf16⟩
  byteUsed := last.inputUTF8 - start.inputUTF8
  charUsed := charCount - last.outputUTF16_size
  completed := (last.inputUTF8 - start.inputUTF8 : Int) == byteCount

theorem convert_eq
    (utf8 : Nat → UInt8)
    (inRange : input.InRange decoder byteCount pArrayChars charIndex
      charCount) :
    let start :=
      input.start decoder byteCount pArrayChars charIndex charCount
    Convert ⟨utf8, decoder.utf16⟩
        (input.resume decoder byteCount pArrayChars charIndex charCount) =
      .S_OK (reportOf utf8 byteCount charCount start (start.finish utf8)) := by
  intro first
  have ⟨bytesFrom, someBytes, charsFrom, someChars, bytes, chars⟩ := inRange
  unfold Convert resume
  dsimp only
  rw [if_neg (by omega)]
  rw [convertFromUTF8_eq]
  have isStart : fromUTF8 ⟨utf8, decoder.utf16⟩ charCount byteCount
      { m_inputUTF8 := input.array.GetElement decoder.byteIndex
        m_inputUTF16 := 0
        m_outputUTF8 := 0
        m_outputUTF8_size := 0
        m_outputUTF16 := pArrayChars.GetElement charIndex
        m_outputUTF16_size := charCount } = first := by
    unfold fromUTF8
    rw [if_neg (by omega)]
    rfl
  rw [isStart]
  rfl

theorem Reports.inRange
    (reports : input.Reports decoder byteCount pArrayChars charIndex charCount
      report) :
    input.InRange decoder byteCount pArrayChars charIndex charCount := by
  unfold Reports Convert resume at reports
  dsimp only at reports
  split at reports
  · cases reports
  case isFalse inside =>
    exact ⟨by omega, by omega, by omega, by omega, by omega, by omega⟩

theorem Reports.report_eq
    (reports : input.Reports decoder byteCount pArrayChars charIndex charCount
      report) :
    report = reportOf input.utf8 byteCount charCount
      (input.start decoder byteCount pArrayChars charIndex charCount)
      ((input.start decoder byteCount pArrayChars charIndex charCount).finish
        input.utf8) := by
  have result := convert_eq input.utf8 reports.inRange
  exact CallResult.S_OK.inj (reports.symm.trans result)

/-- A decoder that stands behind some characters. -/
structure Stands
    (input : Utf8Array)
    (before after : List Char)
    (decoder : Decoder) : Prop where
  characters : input.characters = before ++ after
  byteIndex : decoder.byteIndex = (utf8Of before).length

theorem Stands.held
    {before after : List Char}
    (stands : input.Stands before after decoder) :
    Holds input.utf8 (input.array.GetElement decoder.byteIndex)
      (utf8Of after) := by
  have held := input.held
  rw [stands.characters, utf8Of_append, holds_append] at held
  rw [ElementArray.GetElement, stands.byteIndex, Int.toNat_natCast]
  exact held.2

/-- What a call takes of the characters behind the decoder. -/
structure TakesOf
    (after taken : List Char)
    (byteCount charCount : Int)
    (pArrayChars : ElementArray)
    (charIndex : Int)
    (report : ConvertReport) : Prop where
  begins : taken <+: after
  byteUsed : report.byteUsed = (utf8Of taken).length
  charUsed : report.charUsed = (convertedUnits taken).length
  bytes : ((utf8Of taken).length : Int) ≤ byteCount
  chars : ((convertedUnits taken).length : Int) ≤ charCount
  cells : cellsAt report.memory.utf16 (pArrayChars.GetElement charIndex)
    report.charUsed.toNat = convertedUnits taken
  goesOn : ∀ character ∈ after.head?,
    ((String.utf8EncodeChar character).length : Int) ≤ byteCount →
      2 ≤ charCount → (taken ≠ [] ↔ character.toNat ≠ 0)

theorem Reports.takes
    {after : List Char}
    (reports : input.Reports decoder byteCount pArrayChars charIndex charCount
      report)
    (held : Holds input.utf8 (input.array.GetElement decoder.byteIndex)
      (utf8Of after))
    (most : byteCount ≤ (utf8Of after).length) :
    ∃ taken, TakesOf after taken byteCount charCount pArrayChars charIndex
      report := by
  have inRange := reports.inRange
  have takes : ∃ taken, FromUTF8.Takes after taken
      (input.start decoder byteCount pArrayChars charIndex charCount) _ :=
    FromUTF8.takes_convert held rfl
      ⟨inRange.someChars, inRange.someBytes⟩ most
  obtain ⟨taken, takes⟩ := takes
  obtain ⟨utf16, finished, sameBefore⟩ := FromUTF8.finish_eq input.utf8
    (input.start decoder byteCount pArrayChars charIndex charCount)
  rw [takes.walks] at finished sameBefore
  have isReport := reports.report_eq
  rw [finished] at isReport
  have charUsed : report.charUsed = (convertedUnits taken).length := by
    rw [isReport]
    change charCount - (charCount - ((convertedUnits taken).length : Int)) = _
    omega
  refine ⟨taken, takes.begins, ?_, charUsed, takes.bytes, takes.chars, ?_,
    takes.goesOn⟩
  · rw [isReport]
    change (((input.array.GetElement decoder.byteIndex +
      (utf8Of taken).length : Nat) : Int) - _) = _
    change _ - ((input.array.GetElement decoder.byteIndex : Nat) : Int) = _
    omega
  · rw [charUsed, Int.toNat_natCast, isReport]
    have written : Holds (writeCells decoder.utf16
        (pArrayChars.GetElement charIndex) (convertedUnits taken))
        (pArrayChars.GetElement charIndex) (convertedUnits taken) :=
      holds_writeCells
    refine Eq.trans (cellsAt_congr ?_) written
    intro place _ below
    exact sameBefore place below

/-- Where a decoder stands, what it is given is not more than what is left. -/
theorem Stands.most
    {before after : List Char}
    (stands : input.Stands before after decoder)
    (inRange : input.InRange decoder byteCount pArrayChars charIndex
      charCount) :
    byteCount ≤ (utf8Of after).length := by
  have length := input.numOfElements
  rw [stands.characters, utf8Of_append, List.length_append] at length
  have bytes := inRange.bytes
  rw [stands.byteIndex] at bytes
  omega

/-! ## Sequences of calls -/

theorem ProducesUpTo.stands
    {before : List Char}
    (behind : input.ProducesUpTo before decoder) :
    ∃ after, input.Stands before after decoder := by
  obtain ⟨after, characters⟩ := behind.begins
  exact ⟨after, characters.symm, behind.byteIndex⟩

theorem producesUpTo_step
    {before : List Char}
    {later : Decoder}
    (behind : input.ProducesUpTo before decoder)
    (steps : input.Step decoder later) :
    ∃ before, input.ProducesUpTo before later := by
  cases steps with
  | write utf16 =>
      exact ⟨before, behind.begins, behind.byteIndex, behind.produced⟩
  | convert reports =>
      obtain ⟨after, stands⟩ := behind.stands
      obtain ⟨taken, takes⟩ := reports.takes stands.held
        (stands.most reports.inRange)
      obtain ⟨rest, isAfter⟩ := takes.begins
      refine ⟨before ++ taken, ?_, ?_, ?_⟩
      · rw [stands.characters, ← isAfter, ← List.append_assoc]
        exact List.prefix_append _ rest
      · rw [utf8Of_append, List.length_append, takes.byteUsed,
          behind.byteIndex, Int.natCast_add]
      · intro inPlane
        rw [List.forall_mem_append] at inPlane
        rw [utf16Of_append, takes.cells, convertedUnits_iff.mpr inPlane.2,
          behind.produced inPlane.1]

theorem Reached.producesUpTo (reached : input.Reached decoder) :
    ∃ before, input.ProducesUpTo before decoder := by
  apply Reachable.invariant _ _ reached
  · rintro first ⟨byteIndex, produced⟩
    exact ⟨[], List.nil_prefix, byteIndex, fun _ => produced⟩
  · rintro state later _ ⟨before, behind⟩ steps
    exact producesUpTo_step behind steps

theorem Reports.staysInside
    {before after : List Char}
    (reports : input.Reports decoder byteCount pArrayChars charIndex charCount
      report)
    (stands : input.Stands before after decoder) :
    input.StaysInside decoder byteCount pArrayChars charIndex charCount
      report := by
  have inRange := reports.inRange
  have bytesFrom := inRange.bytesFrom
  have charsFrom := inRange.charsFrom
  have isReport := reports.report_eq
  have bounded := FromUTF8.bounded_finish input.utf8
    (input.start decoder byteCount pArrayChars charIndex charCount)
  obtain ⟨taken, takes⟩ := reports.takes stands.held (stands.most inRange)
  have bytes := takes.bytes
  have chars := takes.chars
  refine ⟨?_, ?_, ?_, ?_, ?_⟩
  · rw [takes.byteUsed]
    omega
  · rw [takes.charUsed]
    omega
  · intro utf8 same
    have sameBytes : FromUTF8.SameBytes input.utf8 utf8
        (input.start decoder byteCount pArrayChars charIndex charCount) := by
      intro place from_ below
      change input.array.elements + decoder.byteIndex.toNat ≤ place at from_
      change (place : Int) < ((input.array.elements +
        decoder.byteIndex.toNat : Nat) : Int) + byteCount at below
      exact same place (by omega) (by omega)
    rw [convert_eq utf8 inRange, FromUTF8.finish_congr sameBytes, isReport]
    rfl
  · intro place outside
    rw [isReport]
    apply bounded.outside place
    change place < pArrayChars.elements + charIndex.toNat ∨
      ((pArrayChars.elements + charIndex.toNat : Nat) : Int) + charCount ≤ place
    omega
  · rw [isReport]
    rfl

/-- A call that is given a whole character uses bytes unless it is a zero. -/
theorem Reports.goesOn
    {character : Char}
    (reports : input.Reports decoder byteCount pArrayChars charIndex charCount
      report)
    (begins : input.BeginsWith decoder.byteIndex byteCount character)
    (room : 2 ≤ charCount) :
    0 < report.byteUsed ↔ character.toNat ≠ 0 := by
  obtain ⟨before, after, characters, byteIndex, fits⟩ := begins
  have stands : input.Stands before (character :: after) decoder :=
    ⟨characters, byteIndex⟩
  obtain ⟨taken, takes⟩ := reports.takes stands.held
    (stands.most reports.inRange)
  rw [← takes.goesOn character rfl fits room, takes.byteUsed]
  cases taken with
  | nil => exact iff_of_false (Int.lt_irrefl 0) fun some_ => some_ rfl
  | cons first taken =>
      have bytes : 0 < (String.utf8EncodeChar first).length :=
        List.length_pos_iff.mpr utf8EncodeChar_ne_nil
      apply iff_of_true _ (List.cons_ne_nil _ _)
      rw [utf8Of_cons, List.length_append]
      omega

end Utf8Array

/-- Sequences of calls decode every well-formed array up to its first zero. -/
theorem decodesUpToZero (input : Utf8Array) : input.DecodesUpToZero where
  produces := fun _ reached => reached.producesUpTo
  staysInside := by
    intro decoder byteCount pArrayChars charIndex charCount report reached
      reports
    obtain ⟨before, behind⟩ := reached.producesUpTo
    obtain ⟨after, stands⟩ := behind.stands
    exact reports.staysInside stands
  goesOn := by
    intro decoder byteCount pArrayChars charIndex charCount report _ reports
      character begins room
    exact reports.goesOn begins room

/-- An array that holds a text. -/
def utf8Array
    (characters : List Char)
    (fits : (utf8Of characters).length < 2 ^ 31) : Utf8Array where
  array := ⟨0, (utf8Of characters).length, fits⟩
  utf8 := textOf (utf8Of characters)
  characters := characters
  numOfElements := rfl
  held := (holds_append.mp (holds_textOf (utf8Of characters))).1

/-- An array of two characters. -/
def pairArray : ElementArray where
  elements := 0
  m_numOfElements := 2
  fits := by decide

/-- A decoder does not get over a zero. -/
theorem not_decodesInChunks_zero :
    ¬ (utf8Array ['\x00', 'A'] (by decide)).DecodesInChunks := by
  intro decodes
  let input := utf8Array ['\x00', 'A'] (by decide)
  let decoder : Decoder := ⟨0, fun _ => 0, []⟩
  have inRange : input.InRange decoder 1 pairArray 0 2 :=
    ⟨by decide, by decide, by decide, by decide, by decide, by decide⟩
  have reports : input.Reports decoder 1 pairArray 0 2 _ :=
    Utf8Array.convert_eq input.utf8 inRange
  have begins : input.BeginsWith decoder.byteIndex 1 '\x00' :=
    ⟨[], ['A'], rfl, rfl, by decide⟩
  have uses := decodes.goesOn decoder 1 pairArray 0 2 _
    (Reachable.start ⟨rfl, rfl⟩) reports '\x00' begins (Int.le_refl 2)
  exact (reports.goesOn begins (Int.le_refl 2)).mp uses rfl

end Text

end NanoClr
