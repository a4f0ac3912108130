import NanoClr.Startup.DeploymentScanEnds

/-!
# The condition is exact

A scan that ends well has met only headers that claim well: one that claims
nothing is read again and again, one that claims more than what remains keeps
the read going, and one that claims so much that the index wraps is read beyond
the range.
-/

namespace NanoClr

namespace Startup

/-! ## The scan without the condition -/

section Necessity

variable
  {range : DeploymentRange}
  {platform : Platform}
  {state : ScanState}
  {result : ScanEnd × ScanState}

/-- What is left of a scan that delivers a result. -/
def Delivers (range : DeploymentRange) (platform : Platform)
    (result : ScanEnd × ScanState) (state : ScanState) : Prop :=
  ∃ rounds, loop (scanRound range platform (readResult range platform)) rounds
    state = some (some result)

theorem Delivers.next
    (delivers : Delivers range platform result state)
    {later : ScanState}
    (goes : scanRound range platform (readResult range platform) state =
      .next later) :
    Delivers range platform result later := by
  obtain ⟨rounds, loops⟩ := delivers
  rcases loop_some loops with last | ⟨_, fewer, _, decides, loops⟩
  · rw [goes] at last
    cases last
  · rw [goes, LoopStep.next.injEq] at decides
    exact ⟨fewer, decides ▸ loops⟩

theorem Delivers.done
    (delivers : Delivers range platform result state)
    {last : Option (ScanEnd × ScanState)}
    (goes : scanRound range platform (readResult range platform) state =
      .done last) :
    last = some result := by
  obtain ⟨rounds, loops⟩ := delivers
  rcases loop_some loops with decides | ⟨_, _, _, decides, _⟩
  · rw [goes, LoopStep.done.injEq] at decides
    exact decides
  · rw [goes] at decides
    cases decides

/-- What holds of every state that a round leads to holds of the result. -/
theorem Delivers.keeps
    (holds : ScanState → Prop)
    (kept : ∀ state later, holds state →
      scanRound range platform (readResult range platform) state =
          .next later ∨
        (∃ ends, scanRound range platform (readResult range platform) state =
          .done (some (ends, later))) → holds later)
    (delivers : Delivers range platform result state)
    (initially : holds state) :
    holds result.2 := by
  obtain ⟨rounds, loops⟩ := delivers
  induction rounds generalizing state with
  | zero => cases loops
  | succ rounds inductionHypothesis =>
      rcases loop_some loops with last | ⟨later, fewer, same, goes, loops⟩
      · exact kept state _ initially (.inr ⟨result.1, last⟩)
      · cases same
        exact inductionHypothesis (kept state later initially (.inl goes)) loops

/-- What the driver read was asked of it. -/
theorem readResult_answers
    (notXIP : range.isXIP = false)
    {index length : Nat}
    {answer : ReadState}
    (comes : readResult range platform index length = some (some answer))
    (positive : length ≠ 0) :
    platform.driverRead index length = true := by
  rw [readResult, if_neg positive] at comes
  simp only [notXIP, Bool.false_eq_true, if_false] at comes
  split at comes
  · by_contra refuses
    rw [if_neg refuses] at comes
    cases comes
  · split at comes
    · cases comes
    · cases comes

/-- What a round may do: nothing, skip a header, or check an assembly. -/
theorem readAssembly_leads
    (fits : range.length < 2 ^ 31)
    (inside : state.currentIndex + headerInBytes ≤ range.length)
    {later : ScanState}
    (leads : readAssembly range (readResult range platform)
          state.currentIndex state.skip = .next later ∨
      ∃ ends, readAssembly range (readResult range platform)
          state.currentIndex state.skip = .done (some (ends, later))) :
    state.skip.reads <+: later.reads ∧
      (later.loads = state.loads ∨ range.isXIP = true ∨
        later.loads = state.loads ++ [state.currentIndex] ∧
          platform.driverRead state.currentIndex
            (roundedSize range.content state.currentIndex) = true) := by
  rw [readAssembly_eq fits inside] at leads
  simp only at leads
  split at leads
  · rcases leads with next | ⟨ends, last⟩
    · cases next
    · cases last
  · rcases leads with next | ⟨ends, last⟩
    · cases next
    · cases last
      exact ⟨List.prefix_rfl, .inl rfl⟩
  next answer comes =>
    have grows : state.skip.reads <+:
        (state.skip.read state.currentIndex
          (roundedSize range.content state.currentIndex) answer).reads :=
      List.prefix_append _ _
    split at leads
    · rcases leads with next | ⟨ends, last⟩
      · cases next
      · cases last
        exact ⟨grows, .inl rfl⟩
    next assembly isPointer =>
      split at leads
      · rcases leads with next | ⟨ends, last⟩
        · cases next
          refine ⟨grows, .inr ?_⟩
          by_cases isXIP : range.isXIP = true
          · exact .inl isXIP
          · rw [assemblyPointer, if_neg isXIP] at isPointer
            split at isPointer
            next holds =>
              cases isPointer
              rw [bufferHolds, decide_eq_true_eq] at holds
              have positive : roundedSize range.content
                  state.currentIndex ≠ 0 := by
                have headerPositive : 0 < headerInBytes := by decide
                have holdsHeader := holds.1
                omega
              exact .inr ⟨rfl, readResult_answers (by simpa using isXIP)
                comes positive⟩
            next => cases isPointer
        · cases last
      · rcases leads with next | ⟨ends, last⟩
        · cases next
          exact ⟨grows, .inl rfl⟩
        · cases last

/-- Where a round leads: the reads stay, and what is loaded was let be read. -/
theorem scanRound_leads
    (fits : range.length < 2 ^ 31)
    {later : ScanState}
    (leads : scanRound range platform (readResult range platform) state =
        .next later ∨
      ∃ ends, scanRound range platform (readResult range platform) state =
        .done (some (ends, later))) :
    state.reads <+: later.reads ∧
      (later.loads = state.loads ∨ range.isXIP = true ∨
        later.loads = state.loads ++ [state.currentIndex] ∧
          platform.malloc state.currentIndex = true ∧
          platform.driverRead state.currentIndex headerInBytes = true ∧
          platform.driverRead state.currentIndex
            (roundedSize range.content state.currentIndex) = true) := by
  have skipped : state.reads <+: state.skip.reads := List.prefix_append _ _
  have stays {ends : ScanEnd} {other : ScanState}
      (decides : scanRound range platform (readResult range platform) state =
        .done (some (ends, other))) : later = other := by
    rcases leads with next | ⟨_, last⟩
    · rw [decides] at next
      cases next
    · rw [decides] at last
      cases last
      rfl
  by_cases inside : state.currentIndex + headerInBytes ≤ range.length
  case neg =>
    cases stays (scanRound_atEnd _ (Nat.lt_of_not_le inside))
    exact ⟨List.prefix_rfl, .inl rfl⟩
  by_cases read : HeaderRead range platform state.currentIndex
  case neg =>
    cases stays (scanRound_unread inside read)
    exact ⟨List.prefix_rfl, .inl rfl⟩
  cases good : goodHeader range.content state.currentIndex with
  | false =>
      rw [scanRound_bad read good] at leads
      rcases leads with next | ⟨ends, last⟩
      · cases next
        exact ⟨skipped, .inl rfl⟩
      · cases last
  | true =>
      by_cases allocated : Allocated range platform state.currentIndex
      case neg =>
        cases stays (scanRound_unallocated read good allocated)
        exact ⟨skipped, .inl rfl⟩
      rw [scanRound_good read good allocated] at leads
      obtain ⟨reads, same | isXIP | ⟨loads, answers⟩⟩ :=
        readAssembly_leads fits inside leads
      · exact ⟨skipped.trans reads, .inl same⟩
      · exact ⟨skipped.trans reads, .inr (.inl isXIP)⟩
      · refine ⟨skipped.trans reads, ?_⟩
        by_cases isXIP : range.isXIP = true
        · exact .inr (.inl isXIP)
        · exact .inr (.inr ⟨loads, allocated.resolve_left isXIP,
            read.2.resolve_left isXIP, answers⟩)

/-- What is loaded was let be read. -/
theorem Delivers.allowed
    (delivers : Delivers range platform result .start)
    (fits : range.length < 2 ^ 31)
    (allocated : range.isXIP = true ∨ platform.mallocHeader = true) :
    ∀ header ∈ result.2.loads, ImageAllowed range platform header := by
  refine delivers.keeps
    (fun state => ∀ header ∈ state.loads, ImageAllowed range platform header)
    ?_ nofun
  intro state later holds leads
  obtain ⟨_, same | isXIP | ⟨loads, answers⟩⟩ := scanRound_leads fits leads
  · rw [same]
    exact holds
  · exact fun _ _ => .inl isXIP
  · rw [loads, List.forall_mem_append, List.forall_mem_singleton]
    refine ⟨holds, ?_⟩
    exact allocated.imp_right fun both => ⟨both, answers⟩

/-- The scan comes to every index that it meets. -/
theorem Delivers.meets
    (delivers : Delivers range platform result .start)
    (fits : range.length < 2 ^ 31)
    {header : Nat}
    (meets : Meets range platform header) :
    ∃ state, state.currentIndex = header ∧
      Delivers range platform result state := by
  induction meets with
  | start => exact ⟨.start, rfl, delivers⟩
  | skip _ read bad inductionHypothesis =>
      obtain ⟨state, rfl, delivers⟩ := inductionHypothesis
      exact ⟨state.skip, rfl, delivers.next (scanRound_bad read bad)⟩
  | pass _ read good allocated assembly inductionHypothesis =>
      obtain ⟨state, rfl, delivers⟩ := inductionHypothesis
      refine ⟨state.pass range, rfl, delivers.next ?_⟩
      rw [scanRound_good read good allocated]
      exact readAssembly_pass fits read.1 assembly

/-- In place, a header that claims nothing is read for ever. -/
theorem scanRound_stale
    (platform : Platform)
    (fits : range.length < 2 ^ 31)
    (isXIP : range.isXIP = true)
    (read : HeaderRead range platform state.currentIndex)
    (good : goodHeader range.content state.currentIndex = true)
    (nothing : roundedSize range.content state.currentIndex = 0) :
    (∃ later, scanRound range platform (readResult range platform) state =
        .done (some (.outside, later))) ∨
      ∃ later, later.currentIndex = state.currentIndex ∧
        scanRound range platform (readResult range platform) state =
          .next later := by
  rw [scanRound_good read good (.inl isXIP), readAssembly_eq fits read.1]
  simp only [nothing, readResult, if_true, Option.none_or]
  split
  · exact .inl ⟨_, rfl⟩
  · split
    · refine .inr ⟨_, ?_, rfl⟩
      rfl
    · refine .inr ⟨_, ?_, rfl⟩
      rfl

theorem Delivers.outside_of_nothing
    (delivers : Delivers range platform result state)
    (fits : range.length < 2 ^ 31)
    (isXIP : range.isXIP = true)
    (read : HeaderRead range platform state.currentIndex)
    (good : goodHeader range.content state.currentIndex = true)
    (nothing : roundedSize range.content state.currentIndex = 0) :
    result.1 = .outside := by
  obtain ⟨rounds, loops⟩ := delivers
  induction rounds generalizing state with
  | zero => cases loops
  | succ rounds inductionHypothesis =>
      rcases scanRound_stale platform fits isXIP read good nothing
        with ⟨later, ends⟩ | ⟨later, same, goes⟩
      · rw [loop_succ_done ends] at loops
        cases loops
        rfl
      · rw [loop_succ_next goes] at loops
        exact inductionHypothesis (same ▸ read) (same ▸ good) (same ▸ nothing)
          loops

/-- The reads of the result include those on the way to it. -/
theorem Delivers.reads
    (delivers : Delivers range platform result state)
    (fits : range.length < 2 ^ 31) :
    state.reads <+: result.2.reads :=
  delivers.keeps (fun later => state.reads <+: later.reads)
    (fun _ _ grown leads => grown.trans (scanRound_leads fits leads).1)
    List.prefix_rfl

/-- A read that returns leaves its trace, and ends outside where the buffer is
too short. -/
theorem Delivers.read
    (delivers : Delivers range platform result state)
    (fits : range.length < 2 ^ 31)
    (inside : state.currentIndex + headerInBytes ≤ range.length)
    (goes : scanRound range platform (readResult range platform) state =
      readAssembly range (readResult range platform) state.currentIndex
        state.skip)
    {answer : ReadState}
    (comes : readResult range platform state.currentIndex
      (roundedSize range.content state.currentIndex) = some (some answer)) :
    (range.isXIP = false →
        bufferHolds range.content state.currentIndex
          (roundedSize range.content state.currentIndex) = false →
        result.1 = .outside) ∧
      (result.1 = .outside ∨
        (state.currentIndex, roundedSize range.content state.currentIndex) ∈
          result.2.reads) := by
  rw [readAssembly_eq fits inside] at goes
  simp only [comes] at goes
  have member : (state.currentIndex,
      roundedSize range.content state.currentIndex) ∈
        (state.skip.read state.currentIndex
          (roundedSize range.content state.currentIndex) answer).reads :=
    List.mem_append_right _ (List.mem_singleton.mpr rfl)
  split at goes
  · have ends := delivers.done goes
    rw [Option.some.injEq] at ends
    have outside : result.1 = .outside := ends ▸ rfl
    exact ⟨fun _ _ => outside, .inl outside⟩
  next assembly isPointer =>
    refine ⟨?_, ?_⟩
    · intro notXIP short
      simp [assemblyPointer, notXIP, short] at isPointer
    · right
      split at goes
      · exact ((delivers.next goes).reads fits).subset member
      · exact ((delivers.next goes).reads fits).subset member

/-- A scan that ends well has met only headers that claim well. -/
theorem Delivers.claimsWell
    (delivers : Delivers range platform result state)
    (fits : range.length < 2 ^ 31)
    (isResult : ScanResult range result)
    (read : HeaderRead range platform state.currentIndex)
    (good : goodHeader range.content state.currentIndex = true)
    (allocated : Allocated range platform state.currentIndex) :
    ClaimsWell range platform state.currentIndex := by
  have goes := scanRound_good read good allocated
  have short {size : Nat} (lacks : size < headerInBytes) :
      bufferHolds range.content state.currentIndex size = false := by
    rw [bufferHolds, decide_eq_false_iff_not]
    exact fun both => absurd both.1 (Nat.not_le_of_lt lacks)
  by_cases nothing : roundedSize range.content state.currentIndex = 0
  · -- Nothing is read, and what is checked is old or too short.
    exfalso
    apply isResult.ends
    by_cases isXIP : range.isXIP = true
    · exact delivers.outside_of_nothing fits isXIP read good nothing
    · have comes : readResult range platform state.currentIndex
          (roundedSize range.content state.currentIndex) =
            some (some
              { currentIndex := state.currentIndex
                remaining := 0
                buffer := none }) := by
        rw [readResult, if_pos nothing]
      refine (delivers.read fits read.1 goes comes).1 (by simpa using isXIP)
        (short ?_)
      rw [nothing]
      decide
  have positive := Nat.pos_of_ne_zero nothing
  cases comes : readResult range platform state.currentIndex
      (roundedSize range.content state.currentIndex) with
  | none =>
      rw [readAssembly_eq fits read.1] at goes
      simp only [comes] at goes
      cases delivers.done goes
  | some answer =>
      cases answer with
      | none =>
          -- Only the driver lets a read fail.
          left
          rw [readResult, if_neg nothing] at comes
          by_cases isXIP : range.isXIP = true
          · simp only [isXIP, if_true, Bool.true_eq_false, false_and,
              if_false] at comes
            split at comes <;> cases comes
          · have notXIP : range.isXIP = false := by simpa using isXIP
            refine ⟨notXIP, positive, ?_⟩
            simp only [notXIP, Bool.false_eq_true, if_false, true_and] at comes
            split
            next whole =>
              rw [if_pos whole] at comes
              split at comes
              · cases comes
              next refuses => simpa using refuses
            next partly =>
              rw [if_neg partly] at comes
              split at comes
              next refuses => exact refuses
              · cases comes
      | some answer =>
          right
          obtain ⟨ends, traced⟩ := delivers.read fits read.1 goes comes
          have remains := isResult.reads _ (traced.resolve_left isResult.ends)
          refine ⟨remains, ?_⟩
          by_cases isXIP : range.isXIP = true
          · rw [if_pos isXIP]
            exact positive
          · rw [if_neg isXIP]
            by_contra lacks
            exact isResult.ends (ends (by simpa using isXIP)
              (short (Nat.lt_of_not_le lacks)))

end Necessity

/-- The scan ends well exactly under its condition. -/
theorem contiguousBlockAssemblies_ends_iff
    (range : DeploymentRange)
    (platform : Platform)
    (fits : range.length < 2 ^ 31) :
    (∃ rounds result,
      contiguousBlockAssemblies range platform rounds = some result ∧
        ScanResult range result) ↔
      ScanCondition range platform := by
  constructor
  · rintro ⟨rounds, result, scans, isResult⟩
    by_cases allocated : range.isXIP = true ∨ platform.mallocHeader = true
    · have delivers : Delivers range platform result .start :=
        contiguousBlockAssemblies_some fits allocated scans
      refine ⟨?_, ?_⟩
      · intro header meets read good isAllocated
        obtain ⟨state, rfl, later⟩ := delivers.meets fits meets
        exact later.claimsWell fits isResult read good isAllocated
      · intro images header isPrefix
        apply delivers.allowed fits allocated
        exact (isResult.images _ isPrefix).subset
          (List.mem_append_right _ (List.mem_singleton.mpr rfl))
    · rw [contiguousBlockAssemblies, if_pos (not_or.mp allocated),
        Option.some.injEq] at scans
      refine ⟨?_, ?_⟩
      · intro header meets
        exfalso
        induction meets with
        | start isAllocated => exact allocated isAllocated
        | skip _ _ _ inductionHypothesis => exact inductionHypothesis
        | pass _ _ _ _ _ inductionHypothesis => exact inductionHypothesis
      · intro images header isPrefix
        have loaded := isResult.images _ isPrefix
        rw [← scans] at loaded
        simp [ScanState.start] at loaded
  · intro condition
    exact condition.ends fits

/-- The bytes of a header without tables, except for its size and its
checksum. -/
def emptyAssembly (size : Nat) (crc : List UInt8) : Bytes := fun address =>
  (c_MARKER_ASSEMBLY_V1 ++ [0] ++ crc ++ List.replicate 26 0 ++ [1] ++
    List.replicate 61 0 ++
    [UInt8.ofNat size, UInt8.ofNat (size / 256)]).getD address 0

/-- A platform on which no allocation and no read fails. -/
def readyPlatform : Platform where
  mallocHeader := true
  malloc := fun _ => true
  driverRead := fun _ _ => true

/-- A range with two assemblies, an erased gap and a third assembly, which are
copied to be read. -/
def threeAssemblies : DeploymentRange where
  content := fun address =>
    if 248 ≤ address ∧ address < 372 then 0xFF
    else emptyAssembly 124 [0x70, 0xD4, 0xDD, 0x9E] (address % 124)
  length := 496
  isXIP := false
  lengthFits := by decide

theorem threeAssemblies_good {header : Nat}
    (isImage : header = 0 ∨ header = 124 ∨ header = 372) :
    goodHeader threeAssemblies.content header = true ∧
      roundedSize threeAssemblies.content header = 124 := by
  rcases isImage with rfl | rfl | rfl
  · decide +kernel
  · decide +kernel
  · decide +kernel

theorem threeAssemblies_gap :
    goodHeader threeAssemblies.content 248 = false := by
  decide +kernel

/-- The scan looks at the images, at the gap and behind the last image. -/
theorem threeAssemblies_met {header : Nat}
    (meets : Meets threeAssemblies readyPlatform header) :
    header = 248 ∨ header = 496 ∨ header = 0 ∨ header = 124 ∨ header = 372 := by
  induction meets with
  | start => omega
  | @skip header _ read bad inductionHypothesis =>
      rcases inductionHypothesis with rfl | rfl | isImage
      · simp [headerInBytes]
      · exact absurd read.1 (by decide)
      · simp [(threeAssemblies_good isImage).1] at bad
  | @pass header _ read good _ _ inductionHypothesis =>
      rcases inductionHypothesis with rfl | rfl | isImage
      · simp [threeAssemblies_gap] at good
      · exact absurd read.1 (by decide)
      · have size := (threeAssemblies_good isImage).2
        omega

/-- The scan of three assemblies with a gap. -/
theorem contiguousBlockAssemblies_ends_gap :
    ∃ rounds result,
      contiguousBlockAssemblies threeAssemblies readyPlatform rounds =
          some result ∧
        ScanResult threeAssemblies result := by
  apply (contiguousBlockAssemblies_ends_iff threeAssemblies readyPlatform
    (by decide)).mpr
  refine ⟨?_, fun _ _ _ => .inr ⟨rfl, rfl, rfl, rfl⟩⟩
  intro header meets read good _
  rcases threeAssemblies_met meets with rfl | rfl | isImage
  · simp [threeAssemblies_gap] at good
  · exact absurd read.1 (by decide)
  · rw [ClaimsWell, (threeAssemblies_good isImage).2]
    exact .inr ⟨read.1, by decide⟩

/-- A range whose only header claims more than what remains. -/
def truncatedAssembly : DeploymentRange where
  content := emptyAssembly 256 [0x67, 0x4C, 0x66, 0x0D]
  length := 128
  isXIP := true
  lengthFits := by decide

/-- The scan of a truncated assembly does not end. -/
theorem contiguousBlockAssemblies_not_ends :
    ¬ ∀ (range : DeploymentRange) (platform : Platform),
      ∃ rounds result,
        contiguousBlockAssemblies range platform rounds = some result ∧
          ScanResult range result := by
  intro holds
  obtain ⟨rounds, result, scans, isResult⟩ :=
    holds truncatedAssembly readyPlatform
  have fits : truncatedAssembly.length < 2 ^ 31 := by decide
  have delivers : Delivers truncatedAssembly readyPlatform result .start :=
    contiguousBlockAssemblies_some fits (.inl rfl) scans
  have read : HeaderRead truncatedAssembly readyPlatform 0 :=
    ⟨by decide, .inl rfl⟩
  have good : goodHeader truncatedAssembly.content 0 = true := by
    decide +kernel
  have size : roundedSize truncatedAssembly.content 0 = 256 := by
    decide +kernel
  have claims : ClaimsWell truncatedAssembly readyPlatform 0 :=
    delivers.claimsWell fits isResult read good (.inl rfl)
  rcases claims with refuses | ⟨remains, _⟩
  · cases refuses.1
  · rw [size] at remains
    exact absurd remains (by decide)

end Startup

end NanoClr
