import Mathlib.Tactic.ByContra
import NanoClr.Startup.ScannedAssemblies

/-!
# When the scan ends

The scan ends, and loads the assemblies that the range starts with, exactly
when each good header that it meets claims at least a word and no more than
what remains, and the platform lets those assemblies be read.
-/

namespace NanoClr

namespace Startup

/-! ## The condition -/

/-- The header claims at least a word, or at least itself when it is copied, and
no more than what remains, unless the driver refuses the read. -/
def ClaimsWell (range : DeploymentRange) (platform : Platform)
    (header : Nat) : Prop :=
  let size := roundedSize range.content header
  DriverRefuses range platform header ∨
    header + size ≤ range.length ∧
      if range.isXIP then 0 < size else headerInBytes ≤ size

/-- The indices at which the scan looks for a header. -/
inductive Meets (range : DeploymentRange) (platform : Platform) : Nat → Prop
  | start (allocated : range.isXIP = true ∨ platform.mallocHeader = true) :
      Meets range platform 0
  | skip {header : Nat} (meets : Meets range platform header)
      (read : HeaderRead range platform header)
      (bad : goodHeader range.content header = false) :
      Meets range platform (header + headerInBytes)
  | pass {header : Nat} (meets : Meets range platform header)
      (read : HeaderRead range platform header)
      (good : goodHeader range.content header = true)
      (allocated : Allocated range platform header)
      (assembly : AssemblyRead range platform header) :
      Meets range platform (header + roundedSize range.content header)

/-- A good assembly that lies within the range. -/
def Image (range : DeploymentRange) (header : Nat) : Prop :=
  goodAssembly range.content header = true ∧
    headerInBytes ≤ totalSize range.content header ∧
    header + totalSize range.content header ≤ range.length ∧
    header + roundedSize range.content header ≤ range.length

/-- Images that lie back to back from an index on. -/
def ImagesFrom (range : DeploymentRange) : Nat → List Nat → Prop
  | _, [] => True
  | index, header :: rest =>
      header = index ∧ Image range header ∧
        ImagesFrom range (index + roundedSize range.content header) rest

/-- The platform lets an assembly be read. -/
def ImageAllowed (range : DeploymentRange) (platform : Platform)
    (header : Nat) : Prop :=
  range.isXIP = true ∨
    platform.mallocHeader = true ∧ platform.malloc header = true ∧
      platform.driverRead header headerInBytes = true ∧
      platform.driverRead header (roundedSize range.content header) = true

/-- When the scan does what it is for. -/
structure ScanCondition (range : DeploymentRange) (platform : Platform) :
    Prop where
  headers : ∀ header, Meets range platform header →
    HeaderRead range platform header →
    goodHeader range.content header = true →
    Allocated range platform header → ClaimsWell range platform header
  images : ∀ images header, ImagesFrom range 0 (images ++ [header]) →
    ImageAllowed range platform header

/-- What the scan is for: it ends, its reads return bytes of the range, the
images that the range starts with are loaded first, every assembly once and in
the order of the addresses, and none that claims more than what remains. -/
structure ScanResult (range : DeploymentRange)
    (result : ScanEnd × ScanState) : Prop where
  ends : result.1 ≠ .outside
  reads : ∀ read ∈ result.2.reads, read.1 + read.2 ≤ range.length
  images : ∀ images, ImagesFrom range 0 images → images <+: result.2.loads
  ordered : result.2.loads.Pairwise (· < ·)
  remaining : ∀ header ∈ result.2.loads,
    header + totalSize range.content header ≤ range.length

section Images

variable {range : DeploymentRange}

theorem ImagesFrom.of_append
    {index : Nat}
    {images more : List Nat}
    (both : ImagesFrom range index (images ++ more)) :
    ImagesFrom range index images := by
  induction images generalizing index with
  | nil => trivial
  | cons header rest inductionHypothesis =>
      exact ⟨both.1, both.2.1, inductionHypothesis both.2.2⟩

/-- An image has a good header that fits into the range. -/
theorem Image.goodHeader
    {header : Nat}
    (image : Image range header) :
    goodHeader range.content header = true ∧
      header + headerInBytes ≤ range.length := by
  obtain ⟨good, holdsHeader, remains, _⟩ := image
  rw [goodAssembly, decide_eq_true_eq] at good
  exact ⟨good.1, by omega⟩

end Images

/-! ## The scan under the condition -/

/-- What holds before each round. -/
structure ScanInvariant (range : DeploymentRange) (platform : Platform)
    (state : ScanState) : Prop where
  meets : Meets range platform state.currentIndex
  inside : state.currentIndex ≤ range.length
  reads : ∀ read ∈ state.reads, read.1 + read.2 ≤ range.length
  images : ∀ images, ImagesFrom range 0 images →
    images <+: state.loads ∨
      ∃ rest, images = state.loads ++ rest ∧
        ImagesFrom range state.currentIndex rest
  ordered : state.loads.Pairwise (· < ·)
  below : ∀ header ∈ state.loads, header < state.currentIndex
  remaining : ∀ header ∈ state.loads,
    header + totalSize range.content header ≤ range.length

section Invariant

variable
  {range : DeploymentRange}
  {platform : Platform}
  {state : ScanState}

theorem ScanInvariant.start
    (allocated : range.isXIP = true ∨ platform.mallocHeader = true) :
    ScanInvariant range platform .start := by
  refine ⟨.start allocated, Nat.zero_le _, nofun, ?_, .nil, nofun, nofun⟩
  intro images isPrefix
  exact .inr ⟨images, rfl, isPrefix⟩

theorem ScanInvariant.skip_reads
    (invariant : ScanInvariant range platform state)
    (fits : state.currentIndex + headerInBytes ≤ range.length) :
    ∀ read ∈ state.skip.reads, read.1 + read.2 ≤ range.length := by
  rw [ScanState.skip, List.forall_mem_append, List.forall_mem_singleton]
  exact ⟨invariant.reads, fits⟩

theorem ScanInvariant.skip
    (invariant : ScanInvariant range platform state)
    (read : HeaderRead range platform state.currentIndex)
    (bad : goodHeader range.content state.currentIndex = false) :
    ScanInvariant range platform state.skip := by
  refine ⟨invariant.meets.skip read bad, read.1,
    invariant.skip_reads read.1, ?_, invariant.ordered, ?_,
    invariant.remaining⟩
  · intro images isPrefix
    rcases invariant.images images isPrefix with loaded | ⟨rest, same, follows⟩
    · exact .inl loaded
    · cases rest with
      | nil => exact .inl (by rw [same, List.append_nil]; exact List.prefix_rfl)
      | cons header rest =>
          obtain ⟨rfl, image, _⟩ := follows
          rw [image.goodHeader.1] at bad
          cases bad
  · intro header member
    exact Nat.lt_add_right _ (invariant.below header member)

theorem ScanInvariant.pass
    (invariant : ScanInvariant range platform state)
    (read : HeaderRead range platform state.currentIndex)
    (good : goodHeader range.content state.currentIndex = true)
    (allocated : Allocated range platform state.currentIndex)
    (assembly : AssemblyRead range platform state.currentIndex) :
    ScanInvariant range platform (state.pass range) := by
  have positive : 0 < roundedSize range.content state.currentIndex := by
    have headerPositive : 0 < headerInBytes := by decide
    rcases assembly.2 with ⟨_, positive⟩ | ⟨_, holdsHeader, _⟩ <;> omega
  have loads : (state.pass range).loads =
      if goodAssembly range.content state.currentIndex then
        state.loads ++ [state.currentIndex]
      else state.loads := rfl
  have grows : state.loads <+: (state.pass range).loads := by
    rw [loads]
    split
    · exact List.prefix_append _ _
    · exact List.prefix_rfl
  have member {header : Nat} (isLoaded : header ∈ (state.pass range).loads) :
      header ∈ state.loads ∨ header = state.currentIndex := by
    rw [loads] at isLoaded
    split at isLoaded
    · rwa [List.mem_append, List.mem_singleton] at isLoaded
    · exact .inl isLoaded
  refine ⟨invariant.meets.pass read good allocated assembly, assembly.1,
    ?_, ?_, ?_, ?_, ?_⟩
  · rw [ScanState.pass, List.forall_mem_append, List.forall_mem_singleton]
    exact ⟨invariant.skip_reads read.1, assembly.1⟩
  · intro images isPrefix
    rcases invariant.images images isPrefix with loaded | ⟨rest, same, follows⟩
    · exact .inl (loaded.trans grows)
    · cases rest with
      | nil =>
          rw [List.append_nil] at same
          exact .inl (same ▸ grows)
      | cons header rest =>
          obtain ⟨rfl, image, follows⟩ := follows
          refine .inr ⟨rest, ?_, follows⟩
          rw [same, loads, if_pos image.1, List.append_assoc]
          rfl
  · rw [loads]
    split
    · refine List.pairwise_append.mpr
        ⟨invariant.ordered, List.pairwise_singleton _ _, ?_⟩
      intro header isLoaded other isLast
      rw [List.mem_singleton.mp isLast]
      exact invariant.below header isLoaded
    · exact invariant.ordered
  · intro header isLoaded
    have passed : (state.pass range).currentIndex =
        state.currentIndex + roundedSize range.content state.currentIndex := rfl
    rw [passed]
    rcases member isLoaded with isOld | rfl
    · exact Nat.lt_add_right _ (invariant.below header isOld)
    · exact Nat.lt_add_of_pos_right positive
  · intro header isLoaded
    rcases member isLoaded with isOld | rfl
    · exact invariant.remaining header isOld
    · have covers := totalSize_le_roundedSize positive
      have remains := assembly.1
      omega

/-- Unless all leading images are loaded, the scan is at one, and the platform
lets it be read. -/
theorem ScanInvariant.loaded_or_allowed
    (invariant : ScanInvariant range platform state)
    (condition : ScanCondition range platform) :
    (∀ images, ImagesFrom range 0 images → images <+: state.loads) ∨
      Image range state.currentIndex ∧
        ImageAllowed range platform state.currentIndex := by
  by_contra neither
  rw [not_or] at neither
  apply neither.1
  intro images isPrefix
  rcases invariant.images images isPrefix with loaded | ⟨rest, same, follows⟩
  · exact loaded
  · cases rest with
    | nil =>
        have whole := same.trans (List.append_nil _)
        exact whole ▸ List.prefix_rfl
    | cons header rest =>
        obtain ⟨rfl, image, _⟩ := follows
        refine absurd ⟨image, condition.images state.loads _ ?_⟩ neither.2
        rw [same, List.append_cons] at isPrefix
        exact isPrefix.of_append

/-- The scan ends well where it is not at an image that can be read. -/
theorem ScanInvariant.result
    (invariant : ScanInvariant range platform state)
    (condition : ScanCondition range platform)
    (notImage : Image range state.currentIndex →
      ¬ ImageAllowed range platform state.currentIndex)
    {result : ScanEnd × ScanState}
    (ends : result.1 ≠ .outside)
    (reads : ∀ read ∈ result.2.reads, read.1 + read.2 ≤ range.length)
    (loads : result.2.loads = state.loads) :
    ScanResult range result := by
  refine ⟨ends, reads, ?_, ?_, ?_⟩
  · rw [loads]
    exact (invariant.loaded_or_allowed condition).resolve_right
      fun both => notImage both.1 both.2
  · rw [loads]
    exact invariant.ordered
  · rw [loads]
    exact invariant.remaining

/-- A header that claims well is refused, or its assembly can be read. -/
theorem ClaimsWell.refused_or_read
    {header : Nat}
    (claims : ClaimsWell range platform header) :
    DriverRefuses range platform header ∨
      AssemblyRead range platform header := by
  rcases claims with refused | ⟨remains, enough⟩
  · exact .inl refused
  · by_cases isXIP : range.isXIP = true
    · rw [if_pos isXIP] at enough
      exact .inr ⟨remains, .inl ⟨isXIP, enough⟩⟩
    · have notXIP : range.isXIP = false := by simpa using isXIP
      rw [if_neg isXIP] at enough
      by_cases answers : platform.driverRead header
          (roundedSize range.content header) = true
      · exact .inr ⟨remains, .inr ⟨notXIP, enough, answers⟩⟩
      · have positive : 0 < roundedSize range.content header :=
          Nat.lt_of_lt_of_le (by decide) enough
        refine .inl ⟨notXIP, positive, ?_⟩
        rw [if_pos (.inl remains)]
        simpa using answers

/-- A round under the condition goes on nearer to the end, or ends well. -/
theorem ScanInvariant.round
    (invariant : ScanInvariant range platform state)
    (condition : ScanCondition range platform)
    (fits : range.length < 2 ^ 31) :
    (∃ later, ScanInvariant range platform later ∧
      range.length - later.currentIndex <
        range.length - state.currentIndex ∧
      scanRound range platform (readResult range platform) state =
        .next later) ∨
    ∃ result, ScanResult range result ∧
      scanRound range platform (readResult range platform) state =
        .done (some result) := by
  have headerPositive : 0 < headerInBytes := by decide
  by_cases inside : state.currentIndex + headerInBytes ≤ range.length
  case neg =>
    right
    refine ⟨_, ?_, scanRound_atEnd _ (Nat.lt_of_not_le inside)⟩
    refine invariant.result condition ?_ nofun invariant.reads rfl
    intro image
    exact absurd image.goodHeader.2 inside
  by_cases read : HeaderRead range platform state.currentIndex
  case neg =>
    right
    refine ⟨_, ?_, scanRound_unread inside read⟩
    refine invariant.result condition ?_ nofun invariant.reads rfl
    intro _ allowed
    exact read ⟨inside, allowed.imp_right fun both => both.2.2.1⟩
  cases good : goodHeader range.content state.currentIndex with
  | false =>
      left
      refine ⟨_, invariant.skip read good, ?_, scanRound_bad read good⟩
      have skipped : state.skip.currentIndex =
          state.currentIndex + headerInBytes := rfl
      rw [skipped]
      omega
  | true =>
      by_cases allocated : Allocated range platform state.currentIndex
      case neg =>
        right
        refine ⟨_, ?_, scanRound_unallocated read good allocated⟩
        refine invariant.result condition ?_ nofun
          (invariant.skip_reads inside) rfl
        intro _ allowed
        exact allocated (allowed.imp_right fun both => both.2.1)
      have claims := condition.headers _ invariant.meets read good allocated
      rw [scanRound_good read good allocated]
      rcases claims.refused_or_read with refused | assembly
      · right
        refine ⟨_, ?_, readAssembly_refused fits inside refused⟩
        refine invariant.result condition ?_ nofun
          (invariant.skip_reads inside) rfl
        intro image allowed
        obtain ⟨notXIP, _, refuses⟩ := refused
        rw [if_pos (.inl image.2.2.2)] at refuses
        rcases allowed with isXIP | ⟨_, _, _, answers⟩
        · rw [notXIP] at isXIP
          cases isXIP
        · rw [refuses] at answers
          cases answers
      · left
        refine ⟨_, invariant.pass read good allocated assembly, ?_,
          readAssembly_pass fits inside assembly⟩
        have passed : (state.pass range).currentIndex = state.currentIndex +
            roundedSize range.content state.currentIndex := rfl
        rw [passed]
        rcases assembly.2 with ⟨_, positive⟩ | ⟨_, holdsHeader, _⟩ <;> omega

end Invariant

/-! ## Rounds of the reads -/

section ReadRounds

variable {range : DeploymentRange} {platform : Platform}

/-- With two rounds for each read, a round of the scan depends on what the reads
come to. -/
theorem scanRound_read
    (fits : range.length < 2 ^ 31)
    {rounds : Nat}
    (enough : 2 ≤ rounds)
    (state : ScanState) :
    scanRound range platform (BlockStorageStream_Read range platform rounds)
        state =
      scanRound range platform (readResult range platform) state := by
  by_cases inside : state.currentIndex + headerInBytes ≤ range.length
  case neg =>
    have short := Nat.lt_of_not_le inside
    rw [scanRound_atEnd _ short, scanRound_atEnd _ short]
  have headerReads := blockStorageStream_Read_eq platform
    (Nat.le_of_add_right_le inside) (by decide : headerInBytes < 2 ^ 32) enough
  have size : roundedSize range.content state.currentIndex < 2 ^ 32 :=
    Nat.lt_of_le_of_lt (roundedSize_le _ _) (by decide)
  have assemblyReads := blockStorageStream_Read_eq platform
    (Nat.le_of_add_right_le inside) size enough
  have back := blockStorageStream_Seek_back fits inside
  rw [scanRound, scanRound, headerReads, readResult_header inside]
  split
  · rfl
  split
  · rfl
  by_cases answers : range.isXIP = true ∨
      platform.driverRead state.currentIndex headerInBytes = true
  · rw [if_pos answers]
    simp only [readAssembly, ScanState.read, back, Option.getD_some,
      assemblyReads]
  · rw [if_neg answers]

/-- More rounds of a read deliver the same. -/
theorem blockStorageStream_Read_more
    {rounds more index length : Nat}
    (enough : rounds ≤ more)
    {result : Option ReadState}
    (delivers : BlockStorageStream_Read range platform rounds index length =
      some result) :
    BlockStorageStream_Read range platform more index length =
      some result :=
  loop_refine _ _ (fun _ => True) (fun _ _ => id) (fun _ _ _ => id) enough
    trivial delivers

section Refine

variable
  {read read' : Nat → Nat → Option (Option ReadState)}
  (refines : ∀ index length result, read index length = some result →
    read' index length = some result)

include refines

/-- A round of the scan that does not depend on more rounds of a read. -/
theorem readAssembly_refine
    {header : Nat}
    {state : ScanState} :
    readAssembly range read header state = .done none ∨
      readAssembly range read' header state =
        readAssembly range read header state := by
  rw [readAssembly, readAssembly]
  generalize (BlockStorageStream_Seek range state.currentIndex
    (2 ^ 32 - headerInBytes) .current).getD state.currentIndex = start
  cases delivers : read start (roundedSize range.content header) with
  | none => exact .inl rfl
  | some result =>
      rw [refines _ _ _ delivers]
      exact .inr rfl

theorem scanRound_refine
    (platform : Platform)
    (state : ScanState) :
    scanRound range platform read state = .done none ∨
      scanRound range platform read' state =
        scanRound range platform read state := by
  rw [scanRound, scanRound]
  split
  · exact .inr rfl
  split
  · exact .inr rfl
  cases delivers : read state.currentIndex headerInBytes with
  | none => exact .inl rfl
  | some result =>
      rw [refines _ _ _ delivers]
      cases result with
      | none => exact .inr rfl
      | some result =>
          simp only
          split
          · exact .inr rfl
          split
          · exact .inr rfl
          · exact readAssembly_refine refines

end Refine

/-- A scan that delivers a result delivers it when each read is taken for what
it comes to. -/
theorem contiguousBlockAssemblies_some
    (fits : range.length < 2 ^ 31)
    (allocated : range.isXIP = true ∨ platform.mallocHeader = true)
    {rounds : Nat}
    {result : ScanEnd × ScanState}
    (delivers : contiguousBlockAssemblies range platform rounds =
      some result) :
    ∃ rounds, loop (scanRound range platform (readResult range platform))
      rounds .start = some (some result) := by
  rw [contiguousBlockAssemblies, if_neg (not_and_or.mpr
    (allocated.imp not_not.mpr not_not.mpr))] at delivers
  have loops := Option.join_eq_some_iff.mp delivers
  refine ⟨rounds + 2, loop_refine _ _ (fun result => result ≠ none) ?_ ?_
    (Nat.le_add_right _ _) nofun loops⟩
  · intro state later goes
    rw [← scanRound_read fits (Nat.le_add_left 2 rounds)]
    rcases scanRound_refine (fun _ _ _ => blockStorageStream_Read_more
        (Nat.le_add_right rounds 2)) platform state with stuck | same
    · rw [goes] at stuck
      cases stuck
    · rw [same, goes]
  · intro state last isSome goes
    rw [← scanRound_read fits (Nat.le_add_left 2 rounds)]
    rcases scanRound_refine (fun _ _ _ => blockStorageStream_Read_more
        (Nat.le_add_right rounds 2)) platform state with stuck | same
    · rw [goes, LoopStep.done.injEq] at stuck
      exact absurd stuck isSome
    · rw [same, goes]

/-- Under the condition the scan ends well. -/
theorem ScanCondition.ends
    (condition : ScanCondition range platform)
    (fits : range.length < 2 ^ 31) :
    ∃ rounds result,
      contiguousBlockAssemblies range platform rounds = some result ∧
        ScanResult range result := by
  by_cases allocated : range.isXIP = true ∨ platform.mallocHeader = true
  · have total := loop_total
      (scanRound range platform (readResult range platform))
      (ScanInvariant range platform)
      (fun result => ∃ pair, result = some pair ∧ ScanResult range pair)
      (fun state => range.length - state.currentIndex)
      (by
        intro state later invariant goes
        rcases invariant.round condition fits with
          ⟨next, kept, nearer, decides⟩ | ⟨result, _, decides⟩
        · rw [goes, LoopStep.next.injEq] at decides
          exact decides ▸ ⟨kept, nearer⟩
        · rw [goes] at decides
          cases decides)
      (by
        intro state last invariant goes
        rcases invariant.round condition fits with
          ⟨next, kept, nearer, decides⟩ | ⟨result, isResult, decides⟩
        · rw [goes] at decides
          cases decides
        · rw [goes, LoopStep.done.injEq] at decides
          exact ⟨result, decides, isResult⟩)
      (.start allocated)
      (Nat.lt_add_of_pos_right (Nat.succ_pos 1))
    obtain ⟨last, delivers, result, isPair, isResult⟩ := total
    refine ⟨range.length - ScanState.start.currentIndex + 2, result, ?_,
      isResult⟩
    have same : scanRound range platform (BlockStorageStream_Read range
        platform (range.length - ScanState.start.currentIndex + 2)) =
          scanRound range platform (readResult range platform) :=
      funext (scanRound_read fits (Nat.le_add_left 2 _))
    rw [contiguousBlockAssemblies, if_neg (not_and_or.mpr
      (allocated.imp not_not.mpr not_not.mpr))]
    simp only [same]
    rw [delivers, isPair]
    rfl
  · refine ⟨0, (.outOfMemory, .start), ?_, nofun, nofun, ?_, .nil, nofun⟩
    · rw [contiguousBlockAssemblies, if_pos (not_or.mp allocated)]
    · intro images isPrefix
      cases images with
      | nil => exact List.prefix_rfl
      | cons header rest =>
          have first : ImagesFrom range 0 ([] ++ [header]) :=
            ⟨isPrefix.1, isPrefix.2.1, trivial⟩
          have allowed := condition.images [] header first
          exact absurd (allowed.imp_right And.left) allocated

end ReadRounds

end Startup

end NanoClr
