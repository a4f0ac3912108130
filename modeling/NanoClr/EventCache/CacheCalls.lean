import NanoClr.EventCache.CacheCollections

/-!
# The calls of the event cache

What is conserved, and that every call conserves it: giving a block back,
extracting a block or the front of one, asking the heap, and collecting.
-/

namespace NanoClr

open HeapBlock HeapCluster

namespace EventCache

/-! ## What is conserved -/

/-- A block that is on a list. -/
def OnList (state : CacheState) (block : Nat) : Prop :=
  ∃ list, block ∈ state.cache.m_events list

/-- A block that is on a list or in the hands of the runtime. -/
def Kept (state : CacheState) (block : Nat) : Prop :=
  block ∈ state.handedOut ∨ OnList state block

/-- A word of such a block. -/
def Covers (state : CacheState) (address : Nat) : Prop :=
  ∃ block, Kept state block ∧ block ≤ address ∧
    address < block + words state.cache.memory block

/-- What holds of the cache between calls. -/
structure Conserved (state : CacheState) : Prop where
  oneList : ∀ block, InHeap state.heap block →
    dataType state.cache.memory block = some .cachedBlock →
    ∃ list, (state.cache.m_events list).count block = 1 ∧
      ∀ other, other ≠ list → block ∉ state.cache.m_events other
  held : ∀ block, OnList state block → InHeap state.heap block ∧
    dataType state.cache.memory block = some .cachedBlock
  sizes : ∀ list, ∀ block ∈ state.cache.m_events list,
    if list.val = 0 then
      c_maxFastLists ≤ dataSize state.cache.memory block
    else
      dataSize state.cache.memory block = list.val
  handed : ∀ block ∈ state.handedOut,
    InHeap state.heap block ∧ ¬ OnList state block
  handedOnce : state.handedOut.Nodup
  apart : ∀ block other, Kept state block → Kept state other →
    block ≠ other →
      block + words state.cache.memory block ≤ other ∨
        other + words state.cache.memory other ≤ block

/-- A block is handed out: it is large enough and on no list. -/
structure Extracts
    (state later : CacheState) (extraction : Extraction) (block : Nat) :
    Prop where
  handed : later.handedOut = block :: state.handedOut
  large : extraction.blocks ≤ dataSize later.cache.memory block
  unlisted : ¬ OnList later block

/-- A block keeps its size, or its tail goes back to a list and both parts
have the size of the whole. -/
def AddsUp (state later : CacheState) (block : Nat) : Prop :=
  dataSize later.cache.memory block = dataSize state.cache.memory block ∨
    ∃ tail, ¬ InHeap state.heap tail ∧ OnList later tail ∧
      tail = block + words later.cache.memory block ∧
      dataSize later.cache.memory block + dataSize later.cache.memory tail =
        dataSize state.cache.memory block

/-- An extraction either waits for the heap with nothing changed, or hands out
a block from a list. -/
def ExtractsFromLists
    (state later : CacheState) (extraction : Extraction) : Prop :=
  (∀ address, Covers later address ↔ Covers state address) ∧
    (later.cache = state.cache ∧ later.handedOut = state.handedOut ∨
      ∃ block, OnList state block ∧ Extracts state later extraction block ∧
        AddsUp state later block)

/-- What a call may do. -/
def StepConserves (state : CacheState) (call : CacheCall)
    (later : CacheState) : Prop :=
  match call with
  | .append node =>
      (∀ address, Covers later address ↔ Covers state address) ∧
        later.handedOut = state.handedOut.erase node ∧ OnList later node
  | .extractSlow extraction => ExtractsFromLists state later extraction
  | .extractFast extraction => ExtractsFromLists state later extraction
  | .extractFromHeap =>
      ∃ extraction collected block,
        state.waiting.head? = some (extraction, collected) ∧
        ¬ InHeap state.heap block ∧
        Extracts state later extraction block ∧
        ∀ address, Covers later address ↔ Covers state address ∨
          block ≤ address ∧
            address < block + words later.cache.memory block
  | .collect _ =>
      (∀ block, ¬ OnList later block) ∧
        later.handedOut = state.handedOut ∧
        ∀ block ∈ state.handedOut,
          later.cache.memory block = state.cache.memory block
  | .giveUp =>
      later.cache = state.cache ∧ later.handedOut = state.handedOut

/-- The condition on the calls. -/
def AsksForBlocks : CacheCall → Prop
  | .extractSlow extraction => 1 ≤ extraction.blocks
  | _ => True

/-! ## The invariant says so -/

theorem CacheInvariant.onList_iff
    {state : CacheState}
    (invariant : CacheInvariant state)
    (block : Nat) :
    OnList state block ↔ InHeap state.heap block ∧
      dataType state.cache.memory block = some .cachedBlock := by
  rw [← mem_cachedBlocks_iff invariant, mem_cachedBlocks, OnList]

theorem CacheInvariant.inHeap_of_kept
    {state : CacheState}
    (invariant : CacheInvariant state)
    {block : Nat}
    (kept : Kept state block) :
    InHeap state.heap block := by
  rcases kept with isHanded | listed
  · exact (invariant.handed block isHanded).1
  · exact ((invariant.onList_iff block).mp listed).1

theorem CacheInvariant.conserved
    {state : CacheState}
    (invariant : CacheInvariant state) :
    Conserved state where
  oneList := by
    intro block inHeap cached
    refine ⟨listFor (dataSize state.cache.memory block), ?_, ?_⟩
    · apply List.count_eq_one_of_mem (invariant.once _)
      exact (invariant.listed block _).mpr ⟨inHeap, cached, rfl⟩
    · intro other different member
      exact different ((invariant.listed block other).mp member).2.2
  held := by
    intro block listed
    exact (invariant.onList_iff block).mp listed
  sizes := by
    intro list block member
    obtain ⟨inHeap, _, listIs⟩ := (invariant.listed block list).mp member
    exact (listFor_eq_iff (inHeap.size_pos invariant.wellFormed) list).mp
      listIs
  handed := by
    intro block isHanded
    obtain ⟨inHeap, uncached, _⟩ := invariant.handed block isHanded
    refine ⟨inHeap, fun listed => ?_⟩
    exact uncached ((invariant.onList_iff block).mp listed).2
  handedOnce := invariant.handedOnce
  apart := by
    intro block other kept otherKept different
    exact (invariant.inHeap_of_kept kept).apart invariant.wellFormed
      (invariant.inHeap_of_kept otherKept) different

/-! ## Words that are covered -/

section Covers

variable {state later : CacheState}

/-- The same blocks with the same sizes cover the same words. -/
theorem covers_of_sizes
    (kept : ∀ block, Kept later block ↔ Kept state block)
    (sizes : ∀ block, Kept state block →
      dataSize later.cache.memory block = dataSize state.cache.memory block)
    (address : Nat) :
    Covers later address ↔ Covers state address := by
  apply exists_congr
  intro block
  rw [kept]
  apply and_congr_right
  intro isKept
  rw [words, words, sizes block isKept]

/-- One more block covers its own words besides. -/
theorem covers_of_new
    {new : Nat}
    (kept : ∀ block, Kept later block ↔ block = new ∨ Kept state block)
    (sizes : ∀ block, Kept state block →
      dataSize later.cache.memory block = dataSize state.cache.memory block)
    (address : Nat) :
    Covers later address ↔ Covers state address ∨
      new ≤ address ∧ address < new + words later.cache.memory new := by
  have sameWords (block : Nat) (isKept : Kept state block) :
      words later.cache.memory block = words state.cache.memory block := by
    rw [words, words, sizes block isKept]
  constructor
  · rintro ⟨block, isKept, inside⟩
    rcases (kept block).mp isKept with rfl | wasKept
    · exact .inr inside
    · rw [sameWords block wasKept] at inside
      exact .inl ⟨block, wasKept, inside⟩
  · rintro (⟨block, wasKept, inside⟩ | inside)
    · rw [← sameWords block wasKept] at inside
      exact ⟨block, (kept block).mpr (.inr wasKept), inside⟩
    · exact ⟨new, (kept new).mpr (.inl rfl), inside⟩

/-- A block cut in two covers what it covered before. -/
theorem covers_of_cut
    {ptr tail : Nat}
    (isKept : Kept state ptr)
    (kept : ∀ block, Kept later block ↔ block = tail ∨ Kept state block)
    (sizes : ∀ block, block ≠ ptr → Kept state block →
      dataSize later.cache.memory block = dataSize state.cache.memory block)
    (behind : tail = ptr + words later.cache.memory ptr)
    (addsUp : dataSize later.cache.memory ptr +
      dataSize later.cache.memory tail = dataSize state.cache.memory ptr)
    (fresh : ¬ Kept state tail)
    (address : Nat) :
    Covers later address ↔ Covers state address := by
  have wholeWords : words later.cache.memory ptr +
      words later.cache.memory tail = words state.cache.memory ptr := by
    simp only [words]
    omega
  have sameWords (block : Nat) (different : block ≠ ptr)
      (wasKept : Kept state block) :
      words later.cache.memory block = words state.cache.memory block := by
    rw [words, words, sizes block different wasKept]
  constructor
  · rintro ⟨block, isKeptNow, inside⟩
    rcases (kept block).mp isKeptNow with isTail | wasKept
    · subst isTail
      exact ⟨ptr, isKept, by omega, by omega⟩
    · by_cases same : block = ptr
      · subst same
        exact ⟨block, isKept, by omega, by omega⟩
      · rw [sameWords block same wasKept] at inside
        exact ⟨block, wasKept, inside⟩
  · rintro ⟨block, wasKept, inside⟩
    by_cases same : block = ptr
    · subst same
      by_cases front : address < block + words later.cache.memory block
      · exact ⟨block, (kept block).mpr (.inr isKept), inside.1, front⟩
      · exact ⟨tail, (kept tail).mpr (.inl rfl), by omega, by omega⟩
    · rw [← sameWords block same wasKept] at inside
      exact ⟨block, (kept block).mpr (.inr wasKept), inside⟩

end Covers

/-! ## Each call -/

section Calls

variable {state : CacheState} {extraction : Extraction}

theorem append_conserves
    (invariant : CacheInvariant state)
    {node : Nat}
    (owned : node ∈ state.handedOut) :
    StepConserves state (.append node)
      { state with
        cache := appendNode state.cache node
        handedOut := state.handedOut.erase node } := by
  have invariant' := appendNode_invariant invariant owned
  have inHeap := (invariant.handed node owned).1
  have reshaped := appendNode_reshaped invariant inHeap
  have sameHeap := reshaped.inHeap_same inHeap
  have named : (appendNode state.cache node).memory node =
      rawId DataType.cachedBlock.code eventFlags
        (dataSize state.cache.memory node) := setDataId_same _ _ _
  obtain ⟨type, _, size⟩ := named_fields named
  rw [Nat.mod_eq_of_lt (dataSize_lt _ _)] at size
  refine ⟨covers_of_sizes ?_ ?_, rfl, ?_⟩
  · intro block
    rw [Kept, Kept, invariant'.onList_iff, invariant.onList_iff]
    refine Iff.trans (or_congr_right (and_congr_left' (sameHeap block))) ?_
    by_cases same : block = node
    · subst same
      exact iff_of_true (.inr ⟨inHeap, type⟩) (.inl owned)
    · apply or_congr (List.mem_erase_of_ne same)
      apply and_congr_right
      intro isIn
      have sameType :=
        (reshaped.fields invariant.wellFormed same isIn).1
      rw [sameType]
      rfl
  · intro block kept
    by_cases same : block = node
    · rw [same]
      exact size
    · exact (reshaped.fields invariant.wellFormed same
        (invariant.inHeap_of_kept kept)).2.2
  · exact (invariant'.onList_iff node).mpr ⟨(sameHeap node).mpr inHeap, type⟩

/-- Handing a block out keeps all sizes. -/
theorem takeNode_sizes
    (wellFormed : HeapWellFormed state.heap)
    {ptr : Nat}
    (inHeap : InHeap state.heap ptr)
    (proper : extraction.Proper)
    {block : Nat}
    (isIn : InHeap state.heap block) :
    dataSize (takeNode state.cache extraction ptr).memory block =
      dataSize state.cache.memory block := by
  obtain ⟨reshaped, named⟩ := takeNode_reshaped wellFormed inHeap proper
  by_cases same : block = ptr
  · rw [same, (named_fields named).2.2]
    exact Nat.mod_eq_of_lt (dataSize_lt _ _)
  · exact (reshaped.fields wellFormed same isIn).2.2

/-- A block that is handed out was on a list before. -/
theorem takeNode_kept
    (once : ∀ list, (state.cache.m_events list).Nodup)
    {ptr : Nat}
    (listed : OnList state ptr)
    (block : Nat) :
    Kept
        { state with
          cache := takeNode state.cache extraction ptr
          handedOut := ptr :: state.handedOut } block ↔
      Kept state block := by
  have lists (list : Fin c_maxFastLists) :
      (takeNode state.cache extraction ptr).m_events list =
        (state.cache.m_events list).erase ptr := by
    rw [takeNode]
    split <;> rfl
  simp only [Kept, OnList, List.mem_cons, lists, (once _).mem_erase_iff]
  by_cases same : block = ptr
  · subst same
    simp only [true_or, true_iff]
    exact .inr listed
  · simp [same]

/-- Extracting a block of a list as a whole. -/
theorem takeNode_conserves
    (invariant : CacheInvariant state)
    (proper : extraction.Proper)
    {ptr : Nat}
    (listed : OnList state ptr)
    (enough : extraction.blocks ≤ dataSize state.cache.memory ptr) :
    ExtractsFromLists state
      { state with
        cache := takeNode state.cache extraction ptr
        handedOut := ptr :: state.handedOut } extraction := by
  have inHeap := ((invariant.onList_iff ptr).mp listed).1
  have sizes {block : Nat} (isIn : InHeap state.heap block) :=
    takeNode_sizes invariant.wellFormed inHeap proper isIn
  refine ⟨covers_of_sizes (takeNode_kept invariant.once listed) ?_,
    .inr ⟨ptr, listed, ⟨rfl, ?_, ?_⟩, .inl (sizes inHeap)⟩⟩
  · intro block kept
    exact sizes (invariant.inHeap_of_kept kept)
  · exact (sizes inHeap).symm ▸ enough
  · rintro ⟨list, member⟩
    exact takeNode_unlisted invariant.once list member

/-- Extracting the front of a block of a list. -/
theorem requeueTail_conserves
    (invariant : CacheInvariant state)
    (proper : extraction.Proper)
    (positive : 1 ≤ extraction.blocks)
    {ptr : Nat}
    {list : Fin c_maxFastLists}
    (member : ptr ∈ state.cache.m_events list)
    (smaller : extraction.blocks < dataSize state.cache.memory ptr) :
    ExtractsFromLists state
      { state with
        cache := takeNode (requeueTail state.cache ptr extraction.blocks
          (dataSize state.cache.memory ptr)) extraction ptr
        handedOut := ptr :: state.handedOut } extraction := by
  obtain ⟨inHeap, cached, _⟩ := (invariant.listed ptr list).mp member
  have cut := requeueTail_cut invariant.wellFormed inHeap positive smaller
  obtain ⟨frontSize, tailSize⟩ := cut.sizes smaller
  let middle : CacheState :=
    { state with
      cache := requeueTail state.cache ptr extraction.blocks
        (dataSize state.cache.memory ptr) }
  have but : InvariantBut middle ptr :=
    requeueTail_but invariant member positive smaller
  have invariant' := takeNode_invariant but proper
  have sizes {block : Nat} (isIn : InHeap middle.heap block) :=
    takeNode_sizes but.wellFormed but.inHeap proper isIn
  have tailIn : InHeap middle.heap (ptr + 3 * extraction.blocks) :=
    (cut.reshaped.inHeap _).mpr (.inl (by simp))
  have notTail : ptr + 3 * extraction.blocks ≠ ptr := by omega
  have wasListed (block : Nat) (different : block ≠ ptr) :
      OnList middle block ↔
        block = ptr + 3 * extraction.blocks ∨ OnList state block := by
    rw [invariant.onList_iff]
    constructor
    · rintro ⟨other, isListed⟩
      obtain ⟨isIn, type, _⟩ := (but.listed block other different).mp isListed
      rcases (cut.reshaped.inHeap block).mp isIn with isPart | ⟨_, isIn⟩
      · rcases List.mem_pair.mp isPart with same | same
        · exact absurd same different
        · exact .inl same
      · have sameType :=
          (cut.reshaped.fields invariant.wellFormed different isIn).1
        exact .inr ⟨isIn, sameType ▸ type⟩
    · rintro (rfl | ⟨isIn, type⟩)
      · exact ⟨_, (but.listed _ _ different).mpr
          ⟨tailIn, (named_fields cut.tail).1, rfl⟩⟩
      · have sameType :=
          (cut.reshaped.fields invariant.wellFormed different isIn).1
        exact ⟨_, (but.listed block _ different).mpr
          ⟨(cut.reshaped.inHeap block).mpr (.inr ⟨different, isIn⟩),
            sameType.trans type, rfl⟩⟩
  have stillListed : OnList middle ptr := by
    refine ⟨list, ?_⟩
    simp only [middle, requeueTail, appendNode, linkAtBack, unlinkBlock,
      Function.update_apply]
    split
    · rename_i same
      rw [← same]
      exact List.mem_append_left _
        ((List.mem_erase_of_ne (Ne.symm notTail)).mpr member)
    · exact (List.mem_erase_of_ne (Ne.symm notTail)).mpr member
  have tailListed : OnList
      { state with
        cache := takeNode middle.cache extraction ptr
        handedOut := ptr :: state.handedOut } (ptr + 3 * extraction.blocks) := by
    obtain ⟨other, isListed⟩ :=
      (wasListed (ptr + 3 * extraction.blocks) notTail).mpr (.inl rfl)
    refine ⟨other, ?_⟩
    have lists : (takeNode middle.cache extraction ptr).m_events other =
        (middle.cache.m_events other).erase ptr := by
      rw [takeNode]
      split <;> rfl
    rw [lists]
    exact (List.mem_erase_of_ne notTail).mpr isListed
  have laterFront : dataSize (takeNode middle.cache extraction ptr).memory ptr =
      extraction.blocks := (sizes but.inHeap).trans frontSize
  have laterTail : dataSize (takeNode middle.cache extraction ptr).memory
      (ptr + 3 * extraction.blocks) =
        dataSize state.cache.memory ptr - extraction.blocks :=
    (sizes tailIn).trans tailSize
  have behind : ptr + 3 * extraction.blocks =
      ptr + words (takeNode middle.cache extraction ptr).memory ptr := by
    rw [words, laterFront]
  have addsUp : dataSize (takeNode middle.cache extraction ptr).memory ptr +
      dataSize (takeNode middle.cache extraction ptr).memory
        (ptr + 3 * extraction.blocks) = dataSize state.cache.memory ptr := by
    rw [laterFront, laterTail]
    omega
  refine ⟨covers_of_cut (.inr ⟨list, member⟩) ?_ ?_ behind addsUp ?_,
    .inr ⟨ptr, ⟨list, member⟩, ⟨rfl, ?_, ?_⟩, .inr
      ⟨_, cut.fresh, tailListed, behind, addsUp⟩⟩⟩
  · intro block
    refine (takeNode_kept but.once stillListed block).trans ?_
    by_cases same : block = ptr
    · subst same
      exact iff_of_true (.inr stillListed) (.inr (.inr ⟨list, member⟩))
    · rw [Kept, Kept, wasListed block same]
      exact or_left_comm
  · intro block different kept
    have isIn := invariant.inHeap_of_kept kept
    exact (sizes ((cut.reshaped.inHeap block).mpr
      (.inr ⟨different, isIn⟩))).trans
        (cut.reshaped.fields invariant.wellFormed different isIn).2.2
  · intro kept
    exact cut.fresh (invariant.inHeap_of_kept kept)
  · exact laterFront.ge
  · rintro ⟨other, isListed⟩
    exact takeNode_unlisted but.once other isListed

/-- The search finds a block of the list that is large enough. -/
theorem findBest_fits
    {memory : Memory}
    {blocks : Nat}
    (list : List Nat)
    (best : Option (Nat × Nat))
    {ptr size : Nat}
    (found : findBest memory blocks list best = some (ptr, size)) :
    ptr ∈ list ∧ size = dataSize memory ptr ∧ blocks ≤ size ∨
      best = some (ptr, size) := by
  fun_induction findBest memory blocks list best with
  | case1 best => exact .inr found
  | case2 best other rest size' same =>
      cases found
      exact .inl ⟨List.mem_cons_self, same.symm, Nat.le_refl _⟩
  | case3 other rest size' different large best bestSize smaller ih =>
      rcases ih found with ⟨member, fits⟩ | same
      · exact .inl ⟨List.mem_cons_of_mem _ member, fits⟩
      · obtain ⟨rfl, sameSize⟩ := Prod.mk.inj (Option.some.inj same)
        exact .inl ⟨List.mem_cons_self, sameSize.symm, sameSize ▸ large⟩
  | case4 other rest size' different large best bestSize notSmaller ih =>
      rcases ih found with ⟨member, fits⟩ | same
      · exact .inl ⟨List.mem_cons_of_mem _ member, fits⟩
      · exact .inr same
  | case5 other rest size' different large accepted ih =>
      rcases ih found with ⟨member, fits⟩ | same
      · exact .inl ⟨List.mem_cons_of_mem _ member, fits⟩
      · obtain ⟨rfl, sameSize⟩ := Prod.mk.inj (Option.some.inj same)
        exact .inl ⟨List.mem_cons_self, sameSize.symm, sameSize ▸ large⟩
  | case6 other rest size' different large refused ih =>
      rcases ih found with ⟨member, fits⟩ | same
      · exact .inl ⟨List.mem_cons_of_mem _ member, fits⟩
      · exact .inr same
  | case7 best other rest size' different small ih =>
      rcases ih found with ⟨member, fits⟩ | same
      · exact .inl ⟨List.mem_cons_of_mem _ member, fits⟩
      · exact .inr same

/-- `Extract_Node_Slow` hands out a block of its list, or nothing changes. -/
theorem extractSlow_conserves
    (invariant : CacheInvariant state)
    (proper : extraction.Proper)
    (positive : 1 ≤ extraction.blocks)
    {cache : BoundedLists}
    {block : Nat}
    (extracts : extractNodeSlow state.cache extraction = some (cache, block)) :
    CacheInvariant
        { state with cache, handedOut := block :: state.handedOut } ∧
      ExtractsFromLists state
        { state with cache, handedOut := block :: state.handedOut }
        extraction := by
  rw [extractNodeSlow] at extracts
  split at extracts
  · rename_i ptr bestSize found
    rw [Option.some.injEq, Prod.mk.injEq] at extracts
    obtain ⟨rfl, rfl⟩ := extracts
    have best := findBest_fits _ _ found
    rw [or_iff_left (Option.some_ne_none _).symm] at best
    have member := best.1
    have fits := best.2.2
    have sizeIs := best.2.1
    rw [sizeIs] at fits ⊢
    by_cases smaller : extraction.blocks < dataSize state.cache.memory ptr
    · rw [if_pos smaller]
      have but := requeueTail_but invariant member positive smaller
      have invariant' := takeNode_invariant but proper
      exact ⟨invariant',
        requeueTail_conserves invariant proper positive member smaller⟩
    · rw [if_neg smaller]
      have invariant' := takeNode_invariant (invariant.but member) proper
      exact ⟨invariant',
        takeNode_conserves invariant proper ⟨_, member⟩ fits⟩
  · cases extracts

/-- `Extract_Node_Fast` hands out the first block of its list. -/
theorem extractFast_conserves
    (invariant : CacheInvariant state)
    (proper : extraction.Proper)
    (positive : 0 < extraction.blocks)
    (small : extraction.blocks < c_maxFastLists)
    {cache : BoundedLists}
    {block : Nat}
    (extracts : extractNodeFast state.cache extraction small =
      some (cache, block)) :
    CacheInvariant
        { state with cache, handedOut := block :: state.handedOut } ∧
      ExtractsFromLists state
        { state with cache, handedOut := block :: state.handedOut }
        extraction := by
  rw [extractNodeFast] at extracts
  split at extracts
  · rename_i ptr rest first
    cases extracts
    have member : block ∈ state.cache.m_events ⟨extraction.blocks, small⟩ := by
      rw [first]
      exact List.mem_cons_self
    obtain ⟨inHeap, _, listIs⟩ := (invariant.listed _ _).mp member
    have size := (listFor_eq_iff (inHeap.size_pos invariant.wellFormed)
      _).mp listIs
    rw [if_neg (by change ¬ extraction.blocks = 0; omega)] at size
    exact ⟨takeNode_invariant (invariant.but member) proper,
      takeNode_conserves invariant proper ⟨_, member⟩ size.ge⟩
  · cases extracts

theorem eventFlags_or (flags : Nat) :
    ((flags ||| eventFlags) % 0x100 &&& HB_Event != 0) = true ∧
      ((flags ||| eventFlags) % 0x100 &&& HB_Alive != 0) = true := by
  have cut : (flags ||| eventFlags) % 0x100 = flags % 0x100 ||| eventFlags := by
    rw [show (0x100 : Nat) = 2 ^ 8 from rfl, Nat.or_mod_two_pow]
    rfl
  have bound : flags % 0x100 < 0x100 := Nat.mod_lt _ (by decide)
  rw [cut]
  generalize flags % 0x100 = byte at bound
  revert byte
  decide +kernel

/-- A block that the heap has is new. -/
theorem extractFromHeap_conserves
    (invariant : CacheInvariant state)
    {collected : Bool}
    {waiting : List (Extraction × Bool)}
    (first : state.waiting = (extraction, collected) :: waiting)
    {memory : Memory}
    {block : Nat}
    (returns : extractHeapBlocks state extraction = some (memory, block))
    (nonzero : block ≠ 0) :
    CacheInvariant
        { state with
          cache := { state.cache with memory := clearData memory block }
          handedOut := block :: state.handedOut
          waiting } ∧
      StepConserves state .extractFromHeap
        { state with
          cache := { state.cache with memory := clearData memory block }
          handedOut := block :: state.handedOut
          waiting } := by
  obtain ⟨proper, positive⟩ :=
    invariant.waiting (extraction, collected) (by simp [first])
  obtain ⟨taken, handedOut⟩ : ∃ taken : Memory,
      HandedOut state.heap taken extraction.dataType
        (extraction.flags ||| eventFlags) extraction.blocks block ∧
      taken = memory := by
    rcases extractFromClusters_spec invariant.wellFormed proper.1
        (extraction.flags ||| eventFlags) positive state.clusters.reverse
        (fun _ => List.mem_reverse.mp) with
      fails | ⟨memory', block', _, returns', handedOut⟩
    · rw [extractHeapBlocks] at returns
      change extractFromClusters state.cache.memory _ _ _ _ = _ at fails
      rw [fails] at returns
      cases returns
      exact absurd rfl nonzero
    · rw [extractHeapBlocks] at returns
      change extractFromClusters state.cache.memory _ _ _ _ = _ at returns'
      rw [returns'] at returns
      cases returns
      exact ⟨_, handedOut, rfl⟩
  obtain ⟨handedOut, rfl⟩ := handedOut
  let heap : Heap := ⟨taken, state.clusters⟩
  have inHeap : InHeap heap block := (handedOut.inHeap block).mpr (.inl rfl)
  have blockWords := inHeap.words_pos handedOut.wellFormed
  have sameId : clearData taken block block = taken block := by
    simp (disch := omega) only [clearData, setPrev, setNext,
      Function.update_of_ne]
  have elsewhere (address : Nat)
      (away : address < block ∨ block + 3 ≤ address) :
      clearData taken block address = taken address := by
    simp (disch := omega) only [clearData, setPrev, setNext,
      Function.update_of_ne]
  obtain ⟨sameType, sameFlags, sameSize⟩ := fields_congr sameId
  have reshaped : Reshaped heap (clearData taken block) block [block] := by
    have sameWords : words (clearData taken block) block =
        words heap.memory block := by
      rw [words, words, sameSize]
    apply handedOut.wellFormed.reshape inHeap
    · intro address outside
      exact elsewhere address (by omega)
    · refine ⟨rfl, ?_, ?_⟩
      · rw [sameWords]
        exact Nat.lt_of_lt_of_le (by decide) blockWords
      · rw [sameWords]
        rfl
    · intro other member
      rw [List.mem_singleton.mp member, isFree, sameType, handedOut.type]
      simpa using proper.1
  have inLater (other : Nat) :
      InHeap ⟨clearData taken block, state.clusters⟩ other ↔
        other = block ∨ InHeap state.heap other :=
    (reshaped.inHeap_same inHeap other).trans (handedOut.inHeap other)
  have different {other : Nat} (isIn : InHeap state.heap other) :
      other ≠ block := by
    rintro rfl
    exact handedOut.fresh isIn
  have fields {other : Nat} (isIn : InHeap state.heap other) :
      clearData taken block other = state.cache.memory other := by
    have isInHeap : InHeap heap other :=
      (handedOut.inHeap other).mpr (.inr isIn)
    have apart := isInHeap.apart handedOut.wellFormed inHeap (different isIn)
    have otherWords := isInHeap.words_pos handedOut.wellFormed
    have positive := isIn.words_pos invariant.wellFormed
    rw [elsewhere other (by omega)]
    exact handedOut.kept other isIn other (by omega) (by omega)
  have invariant' : CacheInvariant
      { state with
        cache := { state.cache with memory := clearData taken block }
        handedOut := block :: state.handedOut
        waiting } := {
    wellFormed := reshaped.wellFormed
    listed := by
      intro other list
      change other ∈ state.cache.m_events list ↔
        InHeap ⟨clearData taken block, state.clusters⟩ other ∧ _
      rw [invariant.listed, inLater]
      by_cases isIn : InHeap state.heap other
      · obtain ⟨type, _, size⟩ := fields_congr (fields isIn)
        simp only [isIn, type, size, or_true]
      · simp only [isIn, false_and, or_false, false_iff, not_and]
        rintro rfl
        rw [sameType, handedOut.type]
        intro cached
        exact absurd (Option.some.inj cached) proper.2
    once := invariant.once
    flagged := by
      intro list other isListed
      have isIn := ((invariant.listed other list).mp isListed).1
      exact (fields_congr (fields isIn)).2.1.trans
        (invariant.flagged list other isListed)
    handedOnce := by
      refine List.nodup_cons.mpr ⟨?_, invariant.handedOnce⟩
      intro member
      exact handedOut.fresh (invariant.handed block member).1
    handed := by
      intro other member
      rcases List.mem_cons.mp member with rfl | isHanded
      · refine ⟨(inLater other).mpr (.inl rfl), ?_, ?_⟩
        · change dataType (clearData taken other) other ≠ _
          rw [sameType, handedOut.type, ne_eq, Option.some.injEq]
          exact proper.2
        · change isEvent (clearData taken other) other = true ∧
            isAlive (clearData taken other) other = true
          rw [isEvent, isAlive, isFlagSet, isFlagSet, sameFlags,
            handedOut.flagged]
          exact eventFlags_or extraction.flags
      · obtain ⟨isIn, uncached, event, alive⟩ :=
          invariant.handed other isHanded
        obtain ⟨type, flags, _⟩ := fields_congr (fields isIn)
        refine ⟨(inLater other).mpr (.inr isIn), ?_, ?_, ?_⟩
        · exact type ▸ uncached
        · rw [isEvent, isFlagSet, flags]
          exact event
        · rw [isAlive, isFlagSet, flags]
          exact alive
    waiting := by
      intro entry member
      exact invariant.waiting entry (by simp [first, member]) }
  have sizeIs : dataSize (clearData taken block) block = extraction.blocks :=
    sameSize.trans handedOut.size
  refine ⟨invariant', extraction, collected, block, by simp [first],
    handedOut.fresh, ⟨rfl, sizeIs.ge, ?_⟩, covers_of_new ?_ ?_⟩
  · rintro ⟨list, member⟩
    exact handedOut.fresh ((invariant.listed block list).mp member).1
  · intro other
    simp only [Kept, OnList, List.mem_cons, or_assoc]
  · intro other kept
    exact (fields_congr (fields (invariant.inHeap_of_kept kept))).2.2

/-- A collection empties the lists and keeps what is handed out. -/
theorem collect_conserves
    (invariant : CacheInvariant state)
    {waiting : List (Extraction × Bool)}
    (first : state.waiting = (extraction, false) :: waiting)
    {marks : List (Nat × Bool)}
    (marked : ∀ mark ∈ marks, InHeap state.heap mark.1 ∧
      isEvent state.cache.memory mark.1 = false)
    {memory : Memory}
    (recovers : recoverClusters
      (applyMarks (eventCacheCleanup state.cache).1.memory marks)
      state.clusters = some memory) :
    CacheInvariant
        { state with
          cache := ⟨memory, fun _ => []⟩
          waiting := (extraction, true) :: waiting } ∧
      StepConserves state (.collect marks)
        { state with
          cache := ⟨memory, fun _ => []⟩
          waiting := (extraction, true) :: waiting } := by
  obtain ⟨memory', returns, wellFormed, uncached, handed⟩ :=
    collect_spec invariant marked
  rw [markedMemory, recovers] at returns
  cases returns
  refine ⟨?_, ?_, rfl, fun block isHanded => (handed block isHanded).2⟩
  · exact {
      wellFormed
      listed := by
        intro block list
        constructor
        · intro member
          cases member
        · rintro ⟨isIn, cached, _⟩
          exact absurd cached (uncached block isIn)
      once := fun _ => List.nodup_nil
      flagged := by
        intro list block member
        cases member
      handedOnce := invariant.handedOnce
      handed := by
        intro block isHanded
        obtain ⟨isIn, same⟩ := handed block isHanded
        obtain ⟨_, _, event, alive⟩ := invariant.handed block isHanded
        obtain ⟨_, flags, _⟩ := fields_congr same
        refine ⟨isIn, uncached block isIn, ?_, ?_⟩
        · rw [isEvent, isFlagSet, flags]
          exact event
        · rw [isAlive, isFlagSet, flags]
          exact alive
      waiting := by
        intro entry member
        rcases List.mem_cons.mp member with rfl | isLater
        · exact invariant.waiting (extraction, false) (by simp [first])
        · exact invariant.waiting entry (by simp [first, isLater]) }
  · rintro block ⟨list, member⟩
    cases member

end Calls

end EventCache

end NanoClr
