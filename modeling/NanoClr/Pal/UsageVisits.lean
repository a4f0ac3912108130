import NanoClr.Pal.BlockSearch

/-!
# Ranges of a usage

The search for the next range of a usage, started again behind each range that
it finds. The indices are those of a table, which a signed counter holds.
-/

namespace NanoClr

namespace Pal

/-- The range of some indices is not in front of that of others. -/
def NotBefore (start indices : Nat × Nat) : Prop :=
  start.1 < indices.1 ∨ start.1 = indices.1 ∧ start.2 ≤ indices.2

/-- The range of some indices is in front of that of others. -/
def Before (left right : Nat × Nat) : Prop :=
  left.1 < right.1 ∨ left.1 = right.1 ∧ left.2 < right.2

theorem NotBefore.trans_before
    {start hit indices : Nat × Nat}
    (after : NotBefore start hit)
    (behind : Before hit indices) :
    NotBefore start indices := by
  unfold NotBefore Before at *
  omega

section Loops

variable {blockUsage : Nat}

theorem findUsageRange_eq_none_iff
    (index : Nat)
    {ranges : List BlockRange} :
    findUsageRange blockUsage index ranges = none ↔
      ∀ range ∈ ranges, ¬range.HasUsage blockUsage := by
  induction ranges generalizing index with
  | nil => simp [findUsageRange]
  | cons range rest inductionHypothesis =>
      rw [findUsageRange, List.forall_mem_cons]
      split
      next hasUsage => simp [hasUsage]
      next other => simp [other, inductionHypothesis]

theorem findUsageRange_spec
    (index : Nat)
    {found : Nat}
    {range : BlockRange}
    {ranges : List BlockRange}
    (isFound : findUsageRange blockUsage index ranges = some (found, range)) :
    ∃ position, found = index + position ∧ ranges[position]? = some range ∧
      range.HasUsage blockUsage ∧
      ∀ earlier < position, ∀ other, ranges[earlier]? = some other →
        ¬other.HasUsage blockUsage := by
  induction ranges generalizing index with
  | nil => cases isFound
  | cons first rest inductionHypothesis =>
      rw [findUsageRange] at isFound
      split at isFound
      next hasUsage =>
        cases isFound
        exact ⟨0, rfl, rfl, hasUsage, fun earlier less => by omega⟩
      next other =>
        obtain ⟨position, rfl, isRange, hasUsage, passed⟩ :=
          inductionHypothesis (index + 1) isFound
        refine ⟨position + 1, by omega, isRange, hasUsage, ?_⟩
        intro earlier less next isNext
        cases earlier with
        | zero =>
            cases isNext
            exact other
        | succ earlier =>
            exact passed earlier (Nat.lt_of_succ_lt_succ less) next isNext

end Loops

namespace DeviceBlockInfo

variable
  {info : DeviceBlockInfo}
  {blockUsage blockRegionIndex blockRangeIndex : Nat}

/-- The indices are those of a range of a usage, and the address is that of its
first block. -/
def IsUsage
    (info : DeviceBlockInfo)
    (blockUsage : Nat)
    (hit : Nat × Nat × Nat) : Prop :=
  ∃ region range, info.rangeAt hit.2.1 hit.2.2 = some (region, range) ∧
    range.HasUsage blockUsage ∧ hit.1 = region.blockAddress range.startBlock

theorem rangeAt_eq_some_iff
    {region : BlockRegionInfo}
    {range : BlockRange} :
    info.rangeAt blockRegionIndex blockRangeIndex = some (region, range) ↔
      info.regions[blockRegionIndex]? = some region ∧
        region.blockRanges[blockRangeIndex]? = some range := by
  unfold rangeAt
  cases info.regions[blockRegionIndex]? with
  | none => simp
  | some found =>
      simp only [Option.some.injEq]
      cases isRange : found.blockRanges[blockRangeIndex]? with
      | none =>
          constructor
          · rintro ⟨⟩
          · rintro ⟨rfl, there⟩
            rw [isRange] at there
            cases there
      | some other =>
          simp only [Option.some.injEq, Prod.mk.injEq]
          constructor
          · rintro ⟨rfl, rfl⟩
            exact ⟨rfl, isRange⟩
          · rintro ⟨rfl, there⟩
            rw [isRange] at there
            exact ⟨rfl, Option.some.inj there⟩

/-- What the search finds in a region, or that it goes on to the next one. -/
theorem findNextUsageBlock_cons
    {region : BlockRegionInfo}
    (isRegion : info.regions[blockRegionIndex]? = some region) :
    info.findNextUsageBlock blockUsage blockRegionIndex blockRangeIndex =
      match findUsageRange blockUsage blockRangeIndex
        (region.blockRanges.drop blockRangeIndex) with
      | some (index, range) =>
          some (region.blockAddress range.startBlock, blockRegionIndex, index)
      | none =>
          info.findNextUsageBlock blockUsage (blockRegionIndex + 1) 0 := by
  obtain ⟨inside, rfl⟩ := List.getElem?_eq_some_iff.mp isRegion
  rw [findNextUsageBlock, List.drop_eq_getElem_cons inside, findUsageRegion]
  rfl

theorem findNextUsageBlock_nil
    (outside : info.regions.length ≤ blockRegionIndex) :
    info.findNextUsageBlock blockUsage blockRegionIndex blockRangeIndex =
      none := by
  rw [findNextUsageBlock, List.drop_of_length_le outside]
  rfl

/-- The search finds the first range of the usage that is not before its
start. -/
theorem findNextUsageBlock_spec
    (info : DeviceBlockInfo)
    (blockUsage blockRegionIndex blockRangeIndex : Nat) :
    (info.findNextUsageBlock blockUsage blockRegionIndex blockRangeIndex =
        none ∧
      ∀ hit, info.IsUsage blockUsage hit →
        ¬NotBefore (blockRegionIndex, blockRangeIndex) hit.2) ∨
    ∃ hit,
      info.findNextUsageBlock blockUsage blockRegionIndex blockRangeIndex =
        some hit ∧
      info.IsUsage blockUsage hit ∧
      NotBefore (blockRegionIndex, blockRangeIndex) hit.2 ∧
      ∀ other, info.IsUsage blockUsage other →
        NotBefore (blockRegionIndex, blockRangeIndex) other.2 →
          other = hit ∨ Before hit.2 other.2 := by
  generalize left_eq : info.regions.length - blockRegionIndex = left
  induction left generalizing blockRegionIndex blockRangeIndex with
  | zero =>
      left
      refine ⟨findNextUsageBlock_nil (by omega), ?_⟩
      rintro hit ⟨region, range, isRange, -, -⟩ after
      rw [rangeAt_eq_some_iff] at isRange
      have inside := (List.getElem?_eq_some_iff.mp isRange.1).1
      rcases after with later | ⟨same, -⟩
      · omega
      · omega
  | succ left inductionHypothesis =>
      have inside : blockRegionIndex < info.regions.length := by omega
      have isRegion := List.getElem?_eq_getElem inside
      generalize info.regions[blockRegionIndex] = region at isRegion
      rw [findNextUsageBlock_cons isRegion]
      cases here : findUsageRange blockUsage blockRangeIndex
          (region.blockRanges.drop blockRangeIndex) with
      | some found =>
          right
          obtain ⟨index, range⟩ := found
          obtain ⟨position, rfl, isRange, hasUsage, passed⟩ :=
            findUsageRange_spec blockRangeIndex here
          rw [List.getElem?_drop] at isRange
          refine ⟨_, rfl, ⟨region, range, rangeAt_eq_some_iff.mpr
            ⟨isRegion, isRange⟩, hasUsage, rfl⟩,
            .inr ⟨rfl, Nat.le_add_right _ _⟩, ?_⟩
          rintro ⟨address, otherRegion, otherRange⟩
            ⟨second, other, isOther, otherUsage, isAddress⟩ after
          rw [rangeAt_eq_some_iff] at isOther
          simp only at isOther isAddress after
          rcases after with later | ⟨same, behind⟩
          · exact .inr (.inl later)
          · simp only at same behind
            subst same
            rw [isRegion] at isOther
            obtain ⟨⟨⟩, isOther⟩ := isOther
            rcases Nat.lt_trichotomy otherRange (blockRangeIndex + position)
              with less | same | greater
            · refine absurd otherUsage (passed (otherRange - blockRangeIndex)
                (by omega) other ?_)
              rw [List.getElem?_drop, Nat.add_sub_cancel' behind]
              exact isOther
            · subst same
              rw [isRange] at isOther
              cases isOther
              exact .inl (by rw [isAddress])
            · exact .inr (.inr ⟨rfl, greater⟩)
      | none =>
          simp only
          rw [findUsageRange_eq_none_iff] at here
          -- A range that is not before the start is in a later region.
          have moves : ∀ hit, info.IsUsage blockUsage hit →
              NotBefore (blockRegionIndex, blockRangeIndex) hit.2 →
                NotBefore (blockRegionIndex + 1, 0) hit.2 := by
            rintro ⟨address, otherRegion, otherRange⟩
              ⟨second, other, isOther, otherUsage, -⟩ after
            rw [rangeAt_eq_some_iff] at isOther
            simp only at isOther after
            rcases after with later | ⟨same, behind⟩
            · rcases Nat.lt_or_ge (blockRegionIndex + 1) otherRegion with
                more | next
              · exact .inl more
              · exact .inr ⟨Nat.le_antisymm later next, Nat.zero_le _⟩
            · simp only at same behind
              subst same
              rw [isRegion] at isOther
              obtain ⟨⟨⟩, isOther⟩ := isOther
              refine absurd otherUsage (here other ?_)
              apply List.mem_of_getElem? (i := otherRange - blockRangeIndex)
              rw [List.getElem?_drop, Nat.add_sub_cancel' behind]
              exact isOther
          have widens : ∀ indices, NotBefore (blockRegionIndex + 1, 0) indices →
              NotBefore (blockRegionIndex, blockRangeIndex) indices := by
            rintro indices (later | ⟨same, -⟩)
            · exact .inl (Nat.lt_of_succ_lt later)
            · exact .inl (Nat.lt_of_succ_le (Nat.le_of_eq same))
          rcases inductionHypothesis (blockRegionIndex + 1) 0 (by omega) with
            ⟨nothing, nowhere⟩ | ⟨hit, isFound, isUsage, after, first⟩
          · left
            refine ⟨nothing, ?_⟩
            intro hit isUsage after
            exact nowhere hit isUsage (moves hit isUsage after)
          · right
            refine ⟨hit, isFound, isUsage, widens hit.2 after, ?_⟩
            intro other otherUsage otherAfter
            exact first other otherUsage (moves other otherUsage otherAfter)

/-- The number of ranges in the region of an index. -/
def rangeCount (info : DeviceBlockInfo) (blockRegionIndex : Nat) : Nat :=
  match info.regions[blockRegionIndex]? with
  | none => 0
  | some region => region.blockRanges.length

theorem IsUsage.inside
    {hit : Nat × Nat × Nat}
    (isUsage : info.IsUsage blockUsage hit) :
    hit.2.1 < info.regions.length ∧ hit.2.2 < info.rangeCount hit.2.1 := by
  obtain ⟨region, range, isRange, -, -⟩ := isUsage
  rw [rangeAt_eq_some_iff] at isRange
  refine ⟨(List.getElem?_eq_some_iff.mp isRange.1).1, ?_⟩
  rw [rangeCount, isRange.1]
  exact (List.getElem?_eq_some_iff.mp isRange.2).1

/-- The search is started again behind each hit, until it finds no more. -/
def usageVisits
    (info : DeviceBlockInfo)
    (blockUsage blockRegionIndex blockRangeIndex : Nat) :
    List (Nat × Nat × Nat) :=
  match found :
      info.findNextUsageBlock blockUsage blockRegionIndex blockRangeIndex with
  | none => []
  | some hit =>
      hit :: info.usageVisits blockUsage hit.2.1 (hit.2.2 + 1)
termination_by
  (info.regions.length - blockRegionIndex,
    info.rangeCount blockRegionIndex - blockRangeIndex)
decreasing_by
  obtain ⟨nothing, -⟩ | ⟨first, isFound, isUsage, after, -⟩ :=
    info.findNextUsageBlock_spec blockUsage blockRegionIndex blockRangeIndex
  · rw [nothing] at found
    cases found
  · rw [isFound] at found
    cases found
    obtain ⟨regionInside, rangeInside⟩ := isUsage.inside
    rcases after with later | ⟨same, behind⟩
    · apply Prod.Lex.left
      simp only at later
      omega
    · simp only at same behind
      rw [← same] at rangeInside ⊢
      apply Prod.Lex.right
      omega

/-- The restarted search visits the ranges of a usage that are not before its
start, one behind the other. -/
structure VisitsUsages
    (info : DeviceBlockInfo)
    (blockUsage blockRegionIndex blockRangeIndex : Nat) : Prop where
  inOrder : (info.usageVisits blockUsage blockRegionIndex
    blockRangeIndex).Pairwise fun left right => Before left.2 right.2
  complete : ∀ hit,
    hit ∈ info.usageVisits blockUsage blockRegionIndex blockRangeIndex ↔
      info.IsUsage blockUsage hit ∧
        NotBefore (blockRegionIndex, blockRangeIndex) hit.2

theorem usageVisits_none
    (nothing : info.findNextUsageBlock blockUsage blockRegionIndex
      blockRangeIndex = none) :
    info.usageVisits blockUsage blockRegionIndex blockRangeIndex = [] := by
  rw [usageVisits]
  split
  · rfl
  · next found =>
      rw [nothing] at found
      cases found

theorem usageVisits_some
    {hit : Nat × Nat × Nat}
    (isFound : info.findNextUsageBlock blockUsage blockRegionIndex
      blockRangeIndex = some hit) :
    info.usageVisits blockUsage blockRegionIndex blockRangeIndex =
      hit :: info.usageVisits blockUsage hit.2.1 (hit.2.2 + 1) := by
  rw [usageVisits]
  split
  · next found =>
      rw [isFound] at found
      cases found
  · next found =>
      rw [isFound] at found
      cases found
      rfl

theorem visitsUsages
    (info : DeviceBlockInfo)
    (blockUsage blockRegionIndex blockRangeIndex : Nat) :
    info.VisitsUsages blockUsage blockRegionIndex blockRangeIndex := by
  induction blockRegionIndex, blockRangeIndex using
      usageVisits.induct info blockUsage with
  | case1 blockRegionIndex blockRangeIndex nothing =>
      obtain ⟨-, nowhere⟩ | ⟨hit, isFound, -⟩ :=
        info.findNextUsageBlock_spec blockUsage blockRegionIndex blockRangeIndex
      · constructor
        · rw [usageVisits_none nothing]
          exact List.Pairwise.nil
        · intro hit
          rw [usageVisits_none nothing]
          constructor
          · rintro ⟨⟩
          · rintro ⟨isUsage, after⟩
            exact absurd after (nowhere hit isUsage)
      · rw [nothing] at isFound
        cases isFound
  | case2 blockRegionIndex blockRangeIndex hit found inductionHypothesis =>
      obtain ⟨nothing, -⟩ | ⟨first, isFound, isUsage, after, next⟩ :=
        info.findNextUsageBlock_spec blockUsage blockRegionIndex blockRangeIndex
      · rw [nothing] at found
        cases found
      · rw [isFound] at found
        cases found
        constructor
        · rw [usageVisits_some isFound, List.pairwise_cons]
          refine ⟨?_, inductionHypothesis.inOrder⟩
          intro other member
          exact ((inductionHypothesis.complete other).mp member).2
        · intro other
          rw [usageVisits_some isFound, List.mem_cons,
            inductionHypothesis.complete]
          constructor
          · rintro (rfl | ⟨otherUsage, behind⟩)
            · exact ⟨isUsage, after⟩
            · exact ⟨otherUsage, after.trans_before behind⟩
          · rintro ⟨otherUsage, otherAfter⟩
            rcases next other otherUsage otherAfter with rfl | behind
            · exact .inl rfl
            · exact .inr ⟨otherUsage, behind⟩

theorem findRegionIndices_iff
    {address outputs region range : Nat} :
    info.findRegionIndices address outputs = ⟨true, region, range⟩ ↔
      info.findRegionFromAddress address = some (region, range) := by
  rw [findRegionIndices]
  cases info.findRegionFromAddress address with
  | none => simp
  | some found => simp [Prod.ext_iff]

/-- The searches of a table are right for an address and for a usage and a
start: the first writes the indices where the address is, and the second visits
the ranges of the usage. -/
def SearchesRight
    (info : DeviceBlockInfo)
    (address blockUsage blockRegionIndex blockRangeIndex : Nat) : Prop :=
  (∀ outputs region range,
    info.findRegionIndices address outputs = ⟨true, region, range⟩ ↔
      info.Locates address region range) ∧
    info.VisitsUsages blockUsage blockRegionIndex blockRangeIndex

/-- Both searches are right exactly when the arithmetic of the first is right
for the address in every region. -/
theorem blockSearches_right_iff
    (consecutive : info.Consecutive)
    (address blockUsage blockRegionIndex blockRangeIndex : Nat) :
    info.SearchesRight address blockUsage blockRegionIndex blockRangeIndex ↔
      ∀ region ∈ info.regions, region.SearchedRight address := by
  have visits := info.visitsUsages blockUsage blockRegionIndex blockRangeIndex
  rw [SearchesRight, and_iff_left visits, ← consecutive.locates_iff]
  simp only [findRegionIndices_iff, forall_const]

/-- Two regions, the ranges of the second one behind its first block. -/
theorem blockSearches_right_iff_twoRegions :
    DeviceBlockInfo.SearchesRight
      ⟨false, [⟨0x08000000, 1, 0x4000, [⟨BlockRange_BLOCKTYPE_CODE, 0, 0⟩]⟩,
        ⟨0x08010000, 4, 0x4000, [⟨BlockRange_BLOCKTYPE_CONFIG, 1, 1⟩,
          ⟨BlockRange_BLOCKTYPE_CODE, 2, 3⟩]⟩]⟩
      0x08018000 BlockUsage_CODE 0 0 := by
  rw [blockSearches_right_iff]
  · simp [BlockRegionInfo.SearchedRight, BlockRegionInfo.Contains,
      BlockRegionInfo.finish, BlockRegionInfo.InFront, BlockRegionInfo.blockOf]
  · constructor
    · simp only [List.forall_mem_cons]
      refine ⟨⟨by decide, 0, 1, ?_, by decide⟩,
        ⟨by decide, 1, 4, ?_, by decide⟩, List.forall_mem_nil _⟩
      · simp [RangesCover]
      · simp [RangesCover]
    · simp only [List.pairwise_cons, List.mem_singleton, forall_eq,
        List.not_mem_nil, IsEmpty.forall_iff, implies_true, and_true,
        List.Pairwise.nil]
      rintro address ⟨above, below⟩ ⟨start, -⟩
      simp only [BlockRegionInfo.finish] at below start
      omega

/-- An address in front of the ranges of its region is found in the first
one. -/
theorem blockSearches_right_inFront :
    ¬∀ info : DeviceBlockInfo, info.Consecutive →
      ∀ address blockUsage blockRegionIndex blockRangeIndex,
        info.SearchesRight address blockUsage blockRegionIndex
          blockRangeIndex := by
  intro always
  have right := always
    ⟨false, [⟨0x08000000, 4, 0x4000, [⟨BlockRange_BLOCKTYPE_CONFIG, 1, 1⟩,
      ⟨BlockRange_BLOCKTYPE_CODE, 2, 3⟩]⟩]⟩ ?_ 0x08000000 0 0 0
  · obtain ⟨region, range, isRange, -, hasBlock⟩ :=
      (right.1 0 0 0).mp (by decide +kernel)
    rw [rangeAt_eq_some_iff] at isRange
    obtain ⟨isRegion, isRange⟩ := isRange
    cases isRegion
    cases isRange
    exact absurd hasBlock.1 (by decide)
  · constructor
    · rw [List.forall_mem_singleton]
      refine ⟨by decide, 1, 4, ?_, by decide⟩
      simp [RangesCover]
    · exact List.pairwise_singleton _ _

end DeviceBlockInfo

end Pal

end NanoClr
