import Mathlib.Data.List.Basic
import NanoClr.Startup.DeploymentScan

/-!
# What the scan finds

In a range whose headers claim at least a word and no more than what remains,
the scan ends and loads the assemblies that the range starts with.  A header
that claims more keeps a read going for ever.
-/

namespace NanoClr

namespace Startup

/-! ## Reads -/

/-- What a read comes to, where no number of rounds suffices when it comes to
nothing. -/
def readResult (range : DeploymentRange) (platform : Platform)
    (currentIndex length : Nat) : Option (Option ReadState) :=
  if length = 0 then
    some (some
      { currentIndex := currentIndex, remaining := 0, buffer := none })
  else if currentIndex + length ≤ range.length ∨
      2 ^ 32 ≤ currentIndex + length then
    if range.isXIP then
      some (some
        { currentIndex := add32 currentIndex length
          remaining := 0
          buffer := some currentIndex })
    else if platform.driverRead currentIndex length then
      some (some
        { currentIndex := add32 currentIndex length
          remaining := 0
          buffer := none })
    else some none
  else if range.isXIP = false ∧
      (platform.driverRead currentIndex (range.length - currentIndex) = false ∨
        platform.driverRead range.length 0 = false) then
    some none
  else none

section Reads

variable {range : DeploymentRange} {platform : Platform}

/-- At the end of the range a read does not go on. -/
theorem readRound_atEnd
    (platform : Platform)
    {state : ReadState}
    (atEnd : state.currentIndex = range.length)
    (more : 0 < state.remaining)
    (noWrap : range.length + state.remaining < 2 ^ 32) :
    readRound range platform state =
      if range.isXIP then .next { state with buffer := some range.length }
      else if platform.driverRead range.length 0 then .next state
      else .done none := by
  have isShort : range.length < add32 range.length state.remaining := by
    rw [add32, Nat.mod_eq_of_lt noWrap]
    omega
  have none : sub32 range.length range.length = 0 := by
    rw [sub32]
    omega
  have same : add32 range.length 0 = range.length := by
    have := range.lengthFits
    rw [add32]
    omega
  have all : sub32 state.remaining 0 = state.remaining := by
    rw [sub32]
    omega
  rw [readRound, if_neg (Nat.ne_of_gt more), atEnd]
  simp only [if_pos isShort, none, same, all]
  simp only [← atEnd]

theorem loop_readRound_atEnd
    {state : ReadState}
    (atEnd : state.currentIndex = range.length)
    (more : 0 < state.remaining)
    (noWrap : range.length + state.remaining < 2 ^ 32)
    (goesOn : range.isXIP = true ∨ platform.driverRead range.length 0 = true)
    (rounds : Nat) :
    loop (readRound range platform) rounds state = none := by
  induction rounds generalizing state with
  | zero => rfl
  | succ rounds inductionHypothesis =>
      have round := readRound_atEnd platform atEnd more noWrap
      by_cases isXIP : range.isXIP = true
      · rw [if_pos isXIP] at round
        rw [loop_succ_next round]
        exact inductionHypothesis atEnd more noWrap
      · rw [if_neg isXIP, if_pos (goesOn.resolve_left isXIP)] at round
        rw [loop_succ_next round]
        exact inductionHypothesis atEnd more noWrap

/-- Two rounds settle a read. -/
theorem blockStorageStream_Read_eq
    (platform : Platform)
    {rounds currentIndex length : Nat}
    (inside : currentIndex ≤ range.length)
    (isWord : length < 2 ^ 32)
    (enough : 2 ≤ rounds) :
    BlockStorageStream_Read range platform rounds currentIndex length =
      readResult range platform currentIndex length := by
  obtain ⟨rounds, rfl⟩ := Nat.exists_eq_add_of_le' enough
  have fits := range.lengthFits
  rw [BlockStorageStream_Read, readResult]
  by_cases isNone : length = 0
  · subst isNone
    rw [if_pos rfl, loop_succ_done (by rw [readRound, if_pos rfl])]
  rw [if_neg isNone]
  by_cases whole : currentIndex + length ≤ range.length ∨
      2 ^ 32 ≤ currentIndex + length
  · have notShort : ¬ range.length < add32 currentIndex length := by
      rw [add32]
      omega
    have nothingLeft : sub32 length length = 0 := by
      rw [sub32]
      omega
    have round : readRound range platform
        { currentIndex := currentIndex, remaining := length, buffer := none } =
          if range.isXIP then
            .next
              { currentIndex := add32 currentIndex length
                remaining := 0
                buffer := some currentIndex }
          else if platform.driverRead currentIndex length then
            .next
              { currentIndex := add32 currentIndex length
                remaining := 0
                buffer := none }
          else .done none := by
      rw [readRound, if_neg isNone]
      simp only [if_neg notShort, nothingLeft]
    rw [if_pos whole]
    by_cases isXIP : range.isXIP = true
    · rw [if_pos isXIP] at round ⊢
      rw [loop_succ_next round]
      exact loop_succ_done (by rw [readRound, if_pos rfl])
    · rw [if_neg isXIP] at round ⊢
      by_cases answers : platform.driverRead currentIndex length = true
      · rw [if_pos answers] at round ⊢
        rw [loop_succ_next round]
        exact loop_succ_done (by rw [readRound, if_pos rfl])
      · rw [if_neg answers] at round ⊢
        exact loop_succ_done round
  · have isShort : range.length < add32 currentIndex length := by
      rw [add32]
      omega
    have left : sub32 range.length currentIndex =
        range.length - currentIndex := by
      rw [sub32]
      omega
    have atEnd : add32 currentIndex (range.length - currentIndex) =
        range.length := by
      rw [add32]
      omega
    have remaining : sub32 length (range.length - currentIndex) =
        currentIndex + length - range.length := by
      rw [sub32]
      omega
    have round : readRound range platform
        { currentIndex := currentIndex, remaining := length, buffer := none } =
          if range.isXIP then
            .next
              { currentIndex := range.length
                remaining := currentIndex + length - range.length
                buffer := some currentIndex }
          else if platform.driverRead currentIndex
              (range.length - currentIndex) then
            .next
              { currentIndex := range.length
                remaining := currentIndex + length - range.length
                buffer := none }
          else .done none := by
      rw [readRound, if_neg isNone]
      simp only [if_pos isShort, left, atEnd, remaining]
    have more : 0 < currentIndex + length - range.length := by omega
    have noWrap : range.length + (currentIndex + length - range.length) <
        2 ^ 32 := by
      omega
    rw [if_neg whole]
    by_cases isXIP : range.isXIP = true
    · rw [if_pos isXIP] at round
      rw [loop_succ_next round, if_neg (by simp [isXIP])]
      exact loop_readRound_atEnd rfl more noWrap (.inl isXIP) _
    · rw [if_neg isXIP] at round
      have notXIP : range.isXIP = false := by simpa using isXIP
      by_cases answers : platform.driverRead currentIndex
          (range.length - currentIndex) = true
      · rw [if_pos answers] at round
        rw [loop_succ_next round]
        by_cases answersNone : platform.driverRead range.length 0 = true
        · rw [if_neg (by simp [answers, answersNone])]
          exact loop_readRound_atEnd rfl more noWrap (.inr answersNone) _
        · rw [if_pos ⟨notXIP, .inr (by simpa using answersNone)⟩]
          let reading : ReadState :=
            { currentIndex := range.length
              remaining := currentIndex + length - range.length
              buffer := none }
          have atIndex : reading.currentIndex = range.length := rfl
          have last := readRound_atEnd platform atIndex more noWrap
          rw [if_neg isXIP, if_neg answersNone] at last
          exact loop_succ_done last
      · rw [if_neg answers] at round
        rw [if_pos ⟨notXIP, .inl (by simpa using answers)⟩]
        exact loop_succ_done round

end Reads

/-! ## Rounds of the scan -/

section Seek

variable {range : DeploymentRange}

/-- The seek behind a header leads back to it. -/
theorem blockStorageStream_Seek_back
    (fits : range.length < 2 ^ 31)
    {header : Nat}
    (inside : header + headerInBytes ≤ range.length) :
    BlockStorageStream_Seek range (header + headerInBytes)
      (2 ^ 32 - headerInBytes) .current = some header := by
  have back : toInt32 ((header + headerInBytes : Nat) +
      (2 ^ 32 - headerInBytes : Nat)) = header := by
    rw [toInt32, headerInBytes] at *
    omega
  have isLength : toInt32 (range.length : Int) = range.length := by
    rw [toInt32]
    omega
  rw [BlockStorageStream_Seek]
  simp only [back, isLength]
  rw [headerInBytes] at inside
  rw [if_neg (by omega), if_neg (by omega), Int.toNat_natCast]

end Seek

/-- The header at an index can be read. -/
def HeaderRead (range : DeploymentRange) (platform : Platform)
    (header : Nat) : Prop :=
  header + headerInBytes ≤ range.length ∧
    (range.isXIP = true ∨ platform.driverRead header headerInBytes = true)

/-- There is memory for the assembly at an index. -/
def Allocated (range : DeploymentRange) (platform : Platform)
    (header : Nat) : Prop :=
  range.isXIP = true ∨ platform.malloc header = true

/-- The assembly at an index can be read and checked. -/
def AssemblyRead (range : DeploymentRange) (platform : Platform)
    (header : Nat) : Prop :=
  let size := roundedSize range.content header
  header + size ≤ range.length ∧
    (range.isXIP = true ∧ 0 < size ∨
      range.isXIP = false ∧ headerInBytes ≤ size ∧
        platform.driverRead header size = true)

/-- The driver refuses to read the assembly at an index: all of it, or, where it
is longer than what remains, what remains or nothing behind it. -/
def DriverRefuses (range : DeploymentRange) (platform : Platform)
    (header : Nat) : Prop :=
  let size := roundedSize range.content header
  range.isXIP = false ∧ 0 < size ∧
    if header + size ≤ range.length ∨ 2 ^ 32 ≤ header + size then
      platform.driverRead header size = false
    else
      platform.driverRead header (range.length - header) = false ∨
        platform.driverRead range.length 0 = false

namespace ScanState

/-- A header that is not good is passed over. -/
def skip (state : ScanState) : ScanState :=
  { state with
    currentIndex := state.currentIndex + headerInBytes
    reads := state.reads ++ [(state.currentIndex, headerInBytes)] }

/-- An assembly is read and checked. -/
def pass (range : DeploymentRange) (state : ScanState) : ScanState :=
  let size := roundedSize range.content state.currentIndex
  { currentIndex := state.currentIndex + size
    assembliesBuffer :=
      if range.isXIP then some state.currentIndex else state.assembliesBuffer
    reads := state.skip.reads ++ [(state.currentIndex, size)]
    loads :=
      if goodAssembly range.content state.currentIndex then
        state.loads ++ [state.currentIndex]
      else state.loads }

end ScanState

section Rounds

variable {range : DeploymentRange} {platform : Platform} {state : ScanState}

theorem scanRound_atEnd
    (read : Nat → Nat → Option (Option ReadState))
    (short : range.length < state.currentIndex + headerInBytes) :
    scanRound range platform read state = .done (some (.finished, state)) := by
  rw [scanRound]
  by_cases more : state.currentIndex < range.length
  · rw [if_neg (not_not.mpr more), if_pos (by omega)]
  · rw [if_pos more]

/-- A header within the range is read in one piece. -/
theorem readResult_header
    {header : Nat}
    (inside : header + headerInBytes ≤ range.length) :
    readResult range platform header headerInBytes =
      if range.isXIP = true ∨ platform.driverRead header headerInBytes = true then
        some (some
          { currentIndex := header + headerInBytes
            remaining := 0
            buffer := if range.isXIP then some header else none })
      else some none := by
  have fits := range.lengthFits
  have noWrap : add32 header headerInBytes = header + headerInBytes := by
    rw [add32]
    omega
  rw [readResult, if_neg (by decide), if_pos (.inl inside), noWrap]
  by_cases isXIP : range.isXIP = true
  · simp [isXIP]
  · by_cases answers : platform.driverRead header headerInBytes = true
    · simp [isXIP, answers]
    · simp [isXIP, answers]

/-- A round that reads a header goes on with its checks. -/
theorem scanRound_header
    (read : HeaderRead range platform state.currentIndex) :
    scanRound range platform (readResult range platform) state =
      if ¬ goodHeader range.content state.currentIndex then .next state.skip
      else if ¬ range.isXIP ∧ ¬ platform.malloc state.currentIndex then
        .done (some (.outOfMemory, state.skip))
      else
        readAssembly range (readResult range platform) state.currentIndex
          state.skip := by
  obtain ⟨inside, answers⟩ := read
  have positive : 0 < headerInBytes := by decide
  rw [scanRound, if_neg (by omega), if_neg (by omega),
    readResult_header inside, if_pos answers]
  rfl

theorem scanRound_unread
    (inside : state.currentIndex + headerInBytes ≤ range.length)
    (unread : ¬ HeaderRead range platform state.currentIndex) :
    scanRound range platform (readResult range platform) state =
      .done (some (.finished, state)) := by
  have positive : 0 < headerInBytes := by decide
  rw [scanRound, if_neg (by omega), if_neg (by omega),
    readResult_header inside, if_neg (fun answers => unread ⟨inside, answers⟩)]

/-- A bad header is skipped. -/
theorem scanRound_bad
    (read : HeaderRead range platform state.currentIndex)
    (bad : goodHeader range.content state.currentIndex = false) :
    scanRound range platform (readResult range platform) state =
      .next state.skip := by
  rw [scanRound_header read, if_pos (by simp [bad])]

theorem scanRound_unallocated
    (read : HeaderRead range platform state.currentIndex)
    (good : goodHeader range.content state.currentIndex = true)
    (unallocated : ¬ Allocated range platform state.currentIndex) :
    scanRound range platform (readResult range platform) state =
      .done (some (.outOfMemory, state.skip)) := by
  rw [scanRound_header read, if_neg (not_not.mpr good),
    if_pos (not_or.mp unallocated)]

theorem scanRound_good
    (read : HeaderRead range platform state.currentIndex)
    (good : goodHeader range.content state.currentIndex = true)
    (allocated : Allocated range platform state.currentIndex) :
    scanRound range platform (readResult range platform) state =
      readAssembly range (readResult range platform) state.currentIndex
        state.skip := by
  rw [scanRound_header read, if_neg (not_not.mpr good),
    if_neg (not_and_or.mpr (allocated.imp not_not.mpr not_not.mpr))]

end Rounds

section Assemblies

variable
  {range : DeploymentRange}
  {platform : Platform}
  {state : ScanState}

/-- The read of the assembly starts at its header again. -/
theorem readAssembly_eq
    (fits : range.length < 2 ^ 31)
    (inside : state.currentIndex + headerInBytes ≤ range.length) :
    readAssembly range (readResult range platform) state.currentIndex
        state.skip =
      let size := roundedSize range.content state.currentIndex
      match readResult range platform state.currentIndex size with
      | none => .done none
      | some none => .done (some (.finished, state.skip))
      | some (some result) =>
          let later :=
            { state.skip.read state.currentIndex size result with
              assembliesBuffer := result.buffer.or state.assembliesBuffer }
          match assemblyPointer range later state.currentIndex size with
          | none => .done (some (.outside, later))
          | some assembly =>
              if goodAssembly range.content assembly then
                .next { later with loads := later.loads ++ [assembly] }
              else .next later := by
  rw [readAssembly]
  have back : BlockStorageStream_Seek range state.skip.currentIndex
      (2 ^ 32 - headerInBytes) .current = some state.currentIndex :=
    blockStorageStream_Seek_back fits inside
  rw [back, Option.getD_some]
  rfl

/-- An assembly within the range fits into its buffer. -/
theorem bufferHolds_of_le
    {bytes : Bytes}
    {header : Nat}
    (fits : roundedSize bytes header < 2 ^ 31)
    (holdsHeader : headerInBytes ≤ roundedSize bytes header) :
    bufferHolds bytes header (roundedSize bytes header) = true := by
  have positive : 0 < roundedSize bytes header :=
    Nat.lt_of_lt_of_le (by decide) holdsHeader
  have covers := totalSize_le_roundedSize positive
  have isWord : totalSize bytes header < 2 ^ 32 := readUInt32_lt _ _
  rw [bufferHolds, decide_eq_true_eq]
  refine ⟨holdsHeader, fun _ => ?_⟩
  rw [bodyInBytes, sub32, toInt32]
  rw [headerInBytes] at *
  omega

/-- An assembly that can be read is passed. -/
theorem readAssembly_pass
    (fits : range.length < 2 ^ 31)
    (inside : state.currentIndex + headerInBytes ≤ range.length)
    (read : AssemblyRead range platform state.currentIndex) :
    readAssembly range (readResult range platform) state.currentIndex
        state.skip = .next (state.pass range) := by
  obtain ⟨whole, answers⟩ := read
  have positive : roundedSize range.content state.currentIndex ≠ 0 := by
    have headerPositive : 0 < headerInBytes := by decide
    rcases answers with ⟨_, positive⟩ | ⟨_, holdsHeader, _⟩ <;> omega
  have noWrap : add32 state.currentIndex
      (roundedSize range.content state.currentIndex) =
        state.currentIndex + roundedSize range.content state.currentIndex := by
    rw [add32]
    omega
  rw [readAssembly_eq fits inside]
  simp only [readResult, if_neg positive, if_pos (Or.inl whole), noWrap]
  rcases answers with ⟨isXIP, _⟩ | ⟨notXIP, holdsHeader, answers⟩
  · simp only [isXIP, if_true, assemblyPointer, Option.some_or,
      ScanState.pass, ScanState.read]
    cases goodAssembly range.content state.currentIndex <;> rfl
  · have holds := bufferHolds_of_le (by omega) holdsHeader
    simp only [notXIP, Bool.false_eq_true, if_false, answers, if_true,
      assemblyPointer, holds, Option.none_or, ScanState.pass, ScanState.read]
    cases goodAssembly range.content state.currentIndex <;> rfl

/-- A read that the driver refuses ends the scan. -/
theorem readAssembly_refused
    (fits : range.length < 2 ^ 31)
    (inside : state.currentIndex + headerInBytes ≤ range.length)
    (refuses : DriverRefuses range platform state.currentIndex) :
    readAssembly range (readResult range platform) state.currentIndex
        state.skip = .done (some (.finished, state.skip)) := by
  obtain ⟨notXIP, positive, refuses⟩ := refuses
  rw [readAssembly_eq fits inside]
  simp only [readResult, if_neg (Nat.ne_of_gt positive)]
  by_cases whole : state.currentIndex +
      roundedSize range.content state.currentIndex ≤ range.length ∨
        2 ^ 32 ≤ state.currentIndex +
          roundedSize range.content state.currentIndex
  · rw [if_pos whole] at refuses
    simp only [if_pos whole, notXIP, refuses, Bool.false_eq_true, if_false]
  · rw [if_neg whole] at refuses
    simp only [if_neg whole, notXIP, refuses, and_self, if_true]

end Assemblies

end Startup

end NanoClr
