import NanoClr.Interrupts.HalQueue
import NanoClr.Library.BoundedFifo
import NanoClr.Library.Cells

/-!
# The queue of hardware events and its storage

The calls of the circular queue that hand out several places at once, and the
queue together with its storage: whoever pushes writes the places that it is
granted, and whoever pops reads them. An array has fewer places than there are
addresses, so that no sum of two places wraps around.
-/

namespace NanoClr

namespace Interrupts

namespace Hal_Queue_UnknownSize

section Calls

variable (queue : Hal_Queue_UnknownSize)

/-- `IsFull`. -/
def IsFull : Bool := queue.m_full

/-- `operator[]`. -/
def Subscript (index : Int) : Option Nat :=
  if index < 0 ∨ (queue.NumberOfElements : Int) ≤ index then none
  else some ((queue.m_reader + index.toNat) % queue.m_size)

/-- `Push( size_t &nElements )`: the granted places, their number and the later
queue. -/
def PushElements (nElements : Nat) : Option Nat × Nat × Hal_Queue_UnknownSize :=
  if queue.m_full ∨ nElements = 0 then
    (none, 0, queue)
  else
    let max :=
      if queue.m_writer < queue.m_reader then queue.m_reader - queue.m_writer
      else queue.m_size - queue.m_writer
    let nElements := if max < nElements then max else nElements
    let m_writer := queue.m_writer + nElements
    let m_writer := if m_writer = queue.m_size then 0 else m_writer
    (some queue.m_writer, nElements, { queue with
      m_writer
      m_full := queue.m_full || m_writer = queue.m_reader })

/-- `Pop( size_t &nElements )`. -/
def PopElements (nElements : Nat) : Option Nat × Nat × Hal_Queue_UnknownSize :=
  if nElements = 0 then
    (none, nElements, queue)
  else if queue.m_reader = queue.m_writer ∧ queue.m_full = false then
    (none, 0, { queue with
      m_reader := 0
      m_writer := 0 })
  else
    let max :=
      if queue.m_writer ≤ queue.m_reader then queue.m_size - queue.m_reader
      else queue.m_writer - queue.m_reader
    let nElements := if max < nElements then max else nElements
    let m_reader := queue.m_reader + nElements
    let m_reader := if m_reader = queue.m_size then 0 else m_reader
    (some queue.m_reader, nElements, { queue with
      m_reader
      m_full := false })

end Calls

namespace WellFormed

variable {queue : Hal_Queue_UnknownSize} (wellFormed : queue.WellFormed)

include wellFormed

/-- A bulk push is granted free places in a row. -/
theorem pushElements
    {nElements : Nat}
    (notFull : queue.m_full = false)
    (positive : 0 < nElements) :
    ∃ granted later,
      queue.PushElements nElements = (some queue.m_writer, granted, later) ∧
        0 < granted ∧ granted ≤ nElements ∧
        queue.m_writer + granted ≤ queue.m_size ∧ later.WellFormed ∧
        later.m_size = queue.m_size ∧
        later.slots = queue.slots ++ List.range' queue.m_writer granted := by
  have writer := wellFormed.writer_lt
  have reader := wellFormed.reader_lt
  generalize maximum : (if queue.m_writer < queue.m_reader then
      queue.m_reader - queue.m_writer
    else queue.m_size - queue.m_writer) = max
  generalize shortened : (if max < nElements then max else nElements) = granted
  have some_ : 0 < granted := by split_ifs at maximum shortened <;> omega
  have atMost : granted ≤ nElements := by split_ifs at shortened <;> omega
  have below : granted ≤ max := by split_ifs at shortened <;> omega
  have inside : queue.m_writer + granted ≤ queue.m_size := by
    split_ifs at maximum <;> omega
  generalize moved : (if queue.m_writer + granted = queue.m_size then 0
    else queue.m_writer + granted) = m_writer
  refine ⟨granted, { queue with
      m_writer
      m_full := queue.m_full || m_writer = queue.m_reader },
    ?_, some_, atMost, inside, ?_, rfl, ?_⟩
  · rw [PushElements, if_neg (by simp [notFull, Nat.ne_of_gt positive])]
    simp only [maximum, shortened, moved]
  · exact {
      writer_lt := by
        show m_writer < queue.m_size
        split_ifs at moved <;> omega
      reader_lt := reader
      full := fun meets => by simpa [notFull] using meets }
  · have count : NumberOfElements { queue with
        m_writer
        m_full := queue.m_full || m_writer = queue.m_reader } =
        queue.NumberOfElements + granted := by
      unfold NumberOfElements
      simp only [notFull, Bool.false_or, decide_eq_true_eq,
        Bool.false_eq_true, if_false]
      split_ifs at maximum moved ⊢ <;> omega
    rw [slots, count]
    show window queue.m_size queue.m_reader _ = _
    rw [window_add, wellFormed.windowEnd_slots, window_eq_range inside, slots]

/-- A bulk pop is granted the oldest places, in a row. -/
theorem popElements
    {nElements : Nat}
    (nonempty : queue.slots ≠ [])
    (positive : 0 < nElements) :
    ∃ granted later,
      queue.PopElements nElements = (some queue.m_reader, granted, later) ∧
        0 < granted ∧ granted ≤ nElements ∧
        queue.m_reader + granted ≤ queue.m_size ∧ later.WellFormed ∧
        later.m_size = queue.m_size ∧
        queue.slots = List.range' queue.m_reader granted ++ later.slots := by
  have writer := wellFormed.writer_lt
  have reader := wellFormed.reader_lt
  have notEmpty : ¬(queue.m_reader = queue.m_writer ∧ queue.m_full = false) := by
    rintro ⟨meets, notFull⟩
    apply nonempty
    rw [← wellFormed.isEmpty_iff, IsEmpty, decide_eq_true_eq]
    exact ⟨meets.symm, notFull⟩
  have full := wellFormed.full
  generalize maximum : (if queue.m_writer ≤ queue.m_reader then
      queue.m_size - queue.m_reader
    else queue.m_writer - queue.m_reader) = max
  generalize shortened : (if max < nElements then max else nElements) = granted
  have some_ : 0 < granted := by split_ifs at maximum shortened <;> omega
  have atMost : granted ≤ nElements := by split_ifs at shortened <;> omega
  have below : granted ≤ max := by split_ifs at shortened <;> omega
  have inside : queue.m_reader + granted ≤ queue.m_size := by
    split_ifs at maximum <;> omega
  generalize moved : (if queue.m_reader + granted = queue.m_size then 0
    else queue.m_reader + granted) = m_reader
  have later_lt : m_reader < queue.m_size := by split_ifs at moved <;> omega
  refine ⟨granted, { queue with
      m_reader
      m_full := false },
    ?_, some_, atMost, inside, ?_, rfl, ?_⟩
  · rw [PopElements, if_neg (Nat.ne_of_gt positive), if_neg notEmpty]
    simp only [maximum, shortened, moved]
  · exact {
      writer_lt := writer
      reader_lt := later_lt
      full := fun isFull => by cases isFull }
  · have count : queue.NumberOfElements = granted +
        NumberOfElements { queue with
          m_reader
          m_full := false } := by
      unfold NumberOfElements
      cases isFull : queue.m_full with
      | true =>
          have meets := full isFull
          simp only [meets, Bool.false_eq_true, if_true, if_false,
            Nat.lt_irrefl, Nat.le_refl] at maximum ⊢
          split_ifs at moved ⊢ <;> omega
      | false =>
          simp only [isFull, and_true] at notEmpty
          simp only [Bool.false_eq_true, if_false]
          split_ifs at maximum moved ⊢ <;> omega
    have behind : windowEnd queue.m_size queue.m_reader granted = m_reader := by
      rw [windowEnd_eq reader]
      split_ifs at moved with atEnd
      · rw [atEnd, Nat.mod_self, moved]
      · rw [← moved, Nat.mod_eq_of_lt (by omega)]
    rw [slots, count, window_add, behind, window_eq_range inside]
    rfl

/-- An index counts the places in use from the oldest one on. -/
theorem subscript
    (index : Int) :
    queue.Subscript index = itemAt queue.slots index := by
  unfold Subscript itemAt
  by_cases negative : index < 0
  · rw [if_pos (.inl negative), if_pos negative]
  · rw [if_neg negative]
    by_cases outside : (queue.NumberOfElements : Int) ≤ index
    · rw [if_pos (.inr outside)]
      symm
      rw [List.getElem?_eq_none_iff, length_slots]
      omega
    · rw [if_neg (by simp [negative, outside]), slots,
        window_getElem? (by omega), windowEnd_eq wellFormed.reader_lt]

end WellFormed

end Hal_Queue_UnknownSize

/-! ## The queue with its storage -/

/-- The queue and what its places hold. -/
structure StoredQueue (T : Type) where
  queue : Hal_Queue_UnknownSize
  m_data : Nat → T

/-- A call: whoever pushes has the elements for the places it asks for. -/
inductive QueueCall (T : Type)
  | Push (element : T)
  | PushElements (elements : List T)
  | Pop
  | PopElements (nElements : Nat)
  | Peek
  | Subscript (index : Int)

/-- What a call hands out: the first of some places in a row, their number, and
what they hold. -/
structure QueueReply (T : Type) where
  place : Option Nat
  nElements : Nat
  elements : List T

/-- The reply to a call that hands out at most one place. -/
def QueueReply.single {T : Type} (m_data : Nat → T) : Option Nat → QueueReply T
  | none => ⟨none, 0, []⟩
  | some place => ⟨some place, 1, [m_data place]⟩

namespace StoredQueue

variable {T : Type}

/-- `Initialize` with a storage of some size. -/
def Initialize (data : Nat → T) (size : Nat) : StoredQueue T where
  queue := Hal_Queue_UnknownSize.Initialize size
  m_data := data

/-- The elements of the places in use, oldest first. -/
def contents (store : StoredQueue T) : List T :=
  store.queue.slots.map store.m_data

/-- The producer writes the places that it was granted. -/
def write (m_data : Nat → T) (elements : List T) : Option Nat → Nat → T
  | none => m_data
  | some place => writeCells m_data place elements

/-- A call and what its caller does with the places. -/
def call (store : StoredQueue T) :
    QueueCall T → QueueReply T × StoredQueue T
  | .Push element =>
      let (place, queue) := store.queue.Push
      let m_data := write store.m_data [element] place
      (.single m_data place, { queue, m_data })
  | .PushElements elements =>
      let (place, nElements, queue) := store.queue.PushElements elements.length
      let granted := elements.take nElements
      (⟨place, nElements, granted⟩,
        { queue, m_data := write store.m_data granted place })
  | .Pop =>
      let (place, queue) := store.queue.Pop
      (.single store.m_data place, { store with queue })
  | .PopElements nElements =>
      let (place, nElements, queue) := store.queue.PopElements nElements
      let elements := match place with
        | none => []
        | some place => cellsAt store.m_data place nElements
      (⟨place, nElements, elements⟩, { store with queue })
  | .Peek => (.single store.m_data store.queue.Peek, store)
  | .Subscript index =>
      (.single store.m_data (store.queue.Subscript index), store)

/-- The event of a bounded queue that a call stands for. -/
def event (store : StoredQueue T) (call : QueueCall T) : FifoEvent T :=
  let reply := (store.call call).1
  match call with
  | .Push element => .put [element] reply.nElements
  | .PushElements elements => .put elements reply.nElements
  | .Pop => .take 1 reply.elements
  | .PopElements nElements => .take nElements reply.elements
  | .Peek => .look 0 reply.elements.head?
  | .Subscript index => .look index reply.elements.head?

/-- The number of places that a call asks for. -/
def requested : QueueCall T → Nat
  | .PushElements elements => elements.length
  | .PopElements nElements => nElements
  | _ => 1

/-- The queue has no place for a call. -/
def Blocked (store : StoredQueue T) : QueueCall T → Prop
  | .Push _ | .PushElements _ => store.contents.length = store.queue.m_size
  | .Pop | .PopElements _ => store.contents = []
  | .Peek => itemAt store.contents 0 = none
  | .Subscript index => itemAt store.contents index = none

/-- A call is granted places in a row inside the storage, and at least one of
those it asks for unless the queue has none. -/
def Grants (store : StoredQueue T) (call : QueueCall T) : Prop :=
  let reply := (store.call call).1
  (requested call = 0 ∨ store.Blocked call →
    reply.place = none ∧ reply.nElements = 0) ∧
  (requested call ≠ 0 → ¬store.Blocked call →
    ∃ place, reply.place = some place ∧ 0 < reply.nElements ∧
      reply.nElements ≤ requested call ∧
      place + reply.nElements ≤ store.queue.m_size)

/-- One call. -/
def Steps (store : StoredQueue T) (call : QueueCall T) (later : StoredQueue T) :
    Prop :=
  (store.call call).2 = later

/-- The queue is well formed over storage of a size. -/
structure Valid (size : Nat) (store : StoredQueue T) : Prop where
  wellFormed : store.queue.WellFormed
  size_eq : store.queue.m_size = size

variable
  {size : Nat}
  {data : Nat → T}
  {store later : StoredQueue T}

@[simp] theorem length_contents :
    store.contents.length = store.queue.NumberOfElements := by
  rw [contents, List.length_map, Hal_Queue_UnknownSize.length_slots]

theorem contents_eq_nil : store.contents = [] ↔ store.queue.slots = [] := by
  rw [contents, List.map_eq_nil_iff]

theorem initialize_valid
    (positive : 1 ≤ size) :
    (Initialize data size).Valid size where
  wellFormed := Hal_Queue_UnknownSize.initialize_wellFormed positive
  size_eq := rfl

/-- What is written behind the places in use follows what they hold. -/
theorem contents_write
    {queue : Hal_Queue_UnknownSize}
    {place : Nat}
    {elements : List T}
    (wellFormed : queue.WellFormed)
    (behind : queue.slots =
      store.queue.slots ++ List.range' place elements.length) :
    contents ⟨queue, writeCells store.m_data place elements⟩ =
      store.contents ++ elements := by
  have distinct := wellFormed.slots_nodup
  rw [behind, List.nodup_append'] at distinct
  rw [contents, behind, List.map_append, map_range_eq_cellsAt, contents]
  have written : Holds (writeCells store.m_data place elements) place elements :=
    holds_writeCells
  rw [written]
  congr 1
  apply List.map_congr_left
  intro slot member
  apply writeCells_outside
  have apart := List.disjoint_left.mp distinct.2.2 member
  rw [List.mem_range'_1] at apart
  omega

/-- A call keeps the storage, does to the elements what its event does to a
bounded queue, and is granted places as it should. -/
structure Meets
    (size : Nat)
    (store : StoredQueue T)
    (call : QueueCall T) : Prop where
  valid : (store.call call).2.Valid size
  steps : FifoStep size store.contents (store.event call)
    (store.call call).2.contents
  grants : store.Grants call

namespace Valid

/-- A call that is granted nothing. -/
theorem meets_of_refused
    {call : QueueCall T}
    (called : store.call call = (⟨none, 0, []⟩, later))
    (refused : requested call = 0 ∨ store.Blocked call)
    (laterValid : later.Valid size)
    (steps : FifoStep size store.contents (store.event call) later.contents) :
    Meets size store call where
  valid := by
    rw [called]
    exact laterValid
  steps := by
    rw [called]
    exact steps
  grants := by
    rw [Grants, called]
    refine ⟨fun _ => ⟨rfl, rfl⟩, ?_⟩
    intro asks free
    rcases refused with nothing | blocked
    · exact absurd nothing asks
    · exact absurd blocked free

variable (valid : store.Valid size)

include valid

theorem full_iff :
    store.queue.m_full = true ↔ store.contents.length = size := by
  rw [length_contents, ← valid.size_eq]
  exact valid.wellFormed.full_iff

theorem isEmpty_iff :
    store.queue.IsEmpty = true ↔ store.contents = [] := by
  rw [contents_eq_nil]
  exact valid.wellFormed.isEmpty_iff

theorem length_le : store.contents.length ≤ size := by
  rw [length_contents, ← valid.size_eq]
  exact valid.wellFormed.numberOfElements_le

theorem blocked_push :
    store.contents.length = store.queue.m_size ↔ store.queue.m_full = true := by
  rw [valid.size_eq]
  exact valid.full_iff.symm

/-- A call that is granted places. -/
theorem meets_of_granted
    {call : QueueCall T}
    {reply : QueueReply T}
    {place : Nat}
    (called : store.call call = (reply, later))
    (granted : reply.place = some place)
    (positive : 0 < reply.nElements)
    (atMost : reply.nElements ≤ requested call)
    (inside : place + reply.nElements ≤ size)
    (free : ¬store.Blocked call)
    (laterValid : later.Valid size)
    (steps : FifoStep size store.contents (store.event call) later.contents) :
    Meets size store call where
  valid := by
    rw [called]
    exact laterValid
  steps := by
    rw [called]
    exact steps
  grants := by
    rw [Grants, called, valid.size_eq]
    constructor
    · rintro (nothing | blocked)
      · omega
      · exact absurd blocked free
    · intro _ _
      exact ⟨place, granted, positive, atMost, inside⟩

theorem meets_push
    (element : T) :
    Meets size store (.Push element) := by
  have fits := valid.length_le
  cases isFull : store.queue.m_full with
  | true =>
      have full := valid.full_iff.mp isFull
      have called : store.call (.Push element) = (⟨none, 0, []⟩, store) := by
        rw [call, Hal_Queue_UnknownSize.push_full isFull]
        rfl
      apply meets_of_refused called
      · exact .inr (valid.blocked_push.mpr isFull)
      · exact valid
      · rw [event, called]
        refine ⟨Nat.zero_le _, ?_, fits, (List.append_nil _).symm⟩
        intro _ notFull
        exact absurd full (Nat.ne_of_lt notFull)
  | false =>
      obtain ⟨queue, pushed, wellFormed, same, behind, -⟩ :=
        valid.wellFormed.push isFull
      have writer := valid.wellFormed.writer_lt
      rw [valid.size_eq] at writer
      have notFull : store.contents.length ≠ size := by
        rw [Ne, ← valid.full_iff, isFull]
        exact Bool.false_ne_true
      have called : store.call (.Push element) =
          (⟨some store.queue.m_writer, 1, [element]⟩,
            ⟨queue, writeCells store.m_data store.queue.m_writer [element]⟩) := by
        have written : writeCells store.m_data store.queue.m_writer [element]
            store.queue.m_writer = element :=
          Function.update_self _ _ _
        simp only [call, pushed, write, QueueReply.single, written]
      apply valid.meets_of_granted called rfl
      · exact Nat.one_pos
      · exact Nat.le_refl 1
      · exact writer
      · rw [Blocked, valid.size_eq]
        exact notFull
      · exact ⟨wellFormed, same.trans valid.size_eq⟩
      · rw [event, called]
        refine ⟨Nat.le_refl 1, fun _ _ => Nat.one_pos, ?_, ?_⟩
        · exact Nat.lt_of_le_of_ne fits notFull
        · exact contents_write wellFormed behind

theorem meets_pushElements
    (elements : List T) :
    Meets size store (.PushElements elements) := by
  have fits := valid.length_le
  by_cases refused : store.queue.m_full = true ∨ elements.length = 0
  · have called : store.call (.PushElements elements) =
        (⟨none, 0, []⟩, store) := by
      rw [call, Hal_Queue_UnknownSize.PushElements, if_pos refused]
      rfl
    apply meets_of_refused called
    · apply refused.symm.imp_right
      exact valid.blocked_push.mpr
    · exact valid
    · rw [event, called]
      refine ⟨Nat.zero_le _, ?_, fits, (List.append_nil _).symm⟩
      intro nonempty notFull
      rcases refused with isFull | empty
      · exact absurd (valid.full_iff.mp isFull) (Nat.ne_of_lt notFull)
      · exact absurd (List.eq_nil_of_length_eq_zero empty) nonempty
  · rw [not_or, Bool.not_eq_true] at refused
    obtain ⟨isFull, asks⟩ := refused
    obtain ⟨granted, queue, pushed, positive, atMost, inside, wellFormed, same,
      behind⟩ := valid.wellFormed.pushElements isFull (Nat.pos_of_ne_zero asks)
    rw [valid.size_eq] at inside
    have count : (elements.take granted).length = granted := by
      rw [List.length_take, Nat.min_eq_left atMost]
    have called : store.call (.PushElements elements) =
        (⟨some store.queue.m_writer, granted, elements.take granted⟩,
          ⟨queue, writeCells store.m_data store.queue.m_writer
            (elements.take granted)⟩) := by
      rw [call, pushed]
      rfl
    have appended : contents ⟨queue, writeCells store.m_data
        store.queue.m_writer (elements.take granted)⟩ =
          store.contents ++ elements.take granted := by
      apply contents_write wellFormed
      rw [behind, count]
    have laterValid : Valid size ⟨queue, writeCells store.m_data
        store.queue.m_writer (elements.take granted)⟩ :=
      ⟨wellFormed, same.trans valid.size_eq⟩
    have laterFits := laterValid.length_le
    rw [appended, List.length_append, count] at laterFits
    apply valid.meets_of_granted called rfl positive atMost inside
    · rw [Blocked, valid.size_eq]
      omega
    · exact laterValid
    · rw [event, called]
      exact ⟨atMost, fun _ _ => positive, laterFits, appended⟩

theorem meets_pop :
    Meets size store .Pop := by
  cases inUse : store.queue.slots with
  | nil =>
      have empty := contents_eq_nil.mpr inUse
      have isEmpty := valid.isEmpty_iff.mpr empty
      have called : store.call .Pop = (⟨none, 0, []⟩, store) := by
        rw [call, Hal_Queue_UnknownSize.Pop, if_pos isEmpty]
        rfl
      apply meets_of_refused called
      · exact .inr empty
      · exact valid
      · rw [event, called]
        exact ⟨Nat.zero_le 1, fun _ some_ => absurd empty some_, rfl⟩
  | cons slot rest =>
      obtain ⟨queue, popped, wellFormed, same, remaining, -, -⟩ :=
        valid.wellFormed.pop inUse
      have inside : slot < size := by
        rw [← valid.size_eq]
        apply valid.wellFormed.slots_lt
        rw [inUse]
        exact List.mem_cons_self
      have called : store.call .Pop =
          (⟨some slot, 1, [store.m_data slot]⟩, ⟨queue, store.m_data⟩) := by
        rw [call, popped]
        rfl
      apply valid.meets_of_granted called rfl
      · exact Nat.one_pos
      · exact Nat.le_refl 1
      · exact inside
      · rw [Blocked, contents_eq_nil, inUse]
        exact List.cons_ne_nil slot rest
      · exact ⟨wellFormed, same.trans valid.size_eq⟩
      · rw [event, called]
        refine ⟨Nat.le_refl 1, fun _ _ => List.cons_ne_nil _ _, ?_⟩
        rw [contents, contents, inUse, remaining]
        rfl

theorem meets_popElements
    (nElements : Nat) :
    Meets size store (.PopElements nElements) := by
  by_cases nothing : nElements = 0
  · subst nothing
    have called : store.call (.PopElements 0) = (⟨none, 0, []⟩, store) := by
      rw [call, Hal_Queue_UnknownSize.PopElements, if_pos rfl]
    apply meets_of_refused called
    · exact .inl rfl
    · exact valid
    · rw [event, called]
      exact ⟨Nat.le_refl 0, fun asks => absurd asks (Nat.lt_irrefl 0), rfl⟩
  · by_cases inUse : store.queue.slots = []
    · have empty := contents_eq_nil.mpr inUse
      have isEmpty := valid.isEmpty_iff.mpr empty
      rw [Hal_Queue_UnknownSize.IsEmpty, decide_eq_true_eq] at isEmpty
      obtain ⟨meets, notFull⟩ := isEmpty
      have positive : 0 < store.queue.m_size :=
        Nat.zero_lt_of_lt valid.wellFormed.writer_lt
      have called : store.call (.PopElements nElements) =
          (⟨none, 0, []⟩, ⟨{ store.queue with
            m_reader := 0
            m_writer := 0 }, store.m_data⟩) := by
        rw [call, Hal_Queue_UnknownSize.PopElements, if_neg nothing,
          if_pos ⟨meets.symm, notFull⟩]
      have laterEmpty : contents ⟨{ store.queue with
          m_reader := 0
          m_writer := 0 }, store.m_data⟩ = [] := by
        rw [contents_eq_nil, ← List.length_eq_zero_iff,
          Hal_Queue_UnknownSize.length_slots,
          Hal_Queue_UnknownSize.NumberOfElements]
        simp [notFull]
      apply meets_of_refused called
      · exact .inr empty
      · exact ⟨⟨positive, positive, fun _ => rfl⟩, valid.size_eq⟩
      · rw [event, called, laterEmpty]
        exact ⟨Nat.zero_le _, fun _ some_ => absurd empty some_, empty⟩
    · obtain ⟨granted, queue, popped, positive, atMost, inside, wellFormed, same,
        oldest⟩ := valid.wellFormed.popElements inUse (Nat.pos_of_ne_zero nothing)
      rw [valid.size_eq] at inside
      have called : store.call (.PopElements nElements) =
          (⟨some store.queue.m_reader, granted,
            cellsAt store.m_data store.queue.m_reader granted⟩,
            ⟨queue, store.m_data⟩) := by
        rw [call, popped]
      apply valid.meets_of_granted called rfl positive atMost inside
      · rw [Blocked, contents_eq_nil]
        exact inUse
      · exact ⟨wellFormed, same.trans valid.size_eq⟩
      · rw [event, called]
        refine ⟨?_, ?_, ?_⟩
        · rw [length_cellsAt]
          exact atMost
        · intro _ _
          rw [← List.length_pos_iff, length_cellsAt]
          exact positive
        · rw [contents, oldest, List.map_append, map_range_eq_cellsAt]
          rfl

/-- Peeking looks at the oldest element. -/
theorem peek_eq : store.queue.Peek = itemAt store.queue.slots 0 := by
  rw [valid.wellFormed.peek]
  exact List.head?_eq_getElem?

end Valid

theorem itemAt_contents (index : Int) :
    itemAt store.contents index =
      (itemAt store.queue.slots index).map store.m_data := by
  unfold itemAt contents
  split
  · rfl
  · exact List.getElem?_map

namespace Valid

variable (valid : store.Valid size)

include valid

/-- A call that looks at the element of an index. -/
theorem meets_look
    {call : QueueCall T}
    {index : Int}
    (called : store.call call =
      (.single store.m_data (itemAt store.queue.slots index), store))
    (asks : requested call = 1)
    (blocked : store.Blocked call ↔ itemAt store.contents index = none)
    (labelled : store.event call =
      .look index (store.call call).1.elements.head?) :
    Meets size store call := by
  have looked : store.event call = .look index (itemAt store.contents index) := by
    rw [labelled, called, itemAt_contents]
    cases itemAt store.queue.slots index <;> rfl
  have steps :
      FifoStep size store.contents (store.event call) store.contents := by
    rw [looked]
    exact ⟨rfl, rfl⟩
  cases found : itemAt store.queue.slots index with
  | none =>
      rw [found] at called
      apply meets_of_refused called _ valid steps
      rw [blocked, itemAt_contents, found]
      exact .inr rfl
  | some slot =>
      have member : slot ∈ store.queue.slots := by
        unfold itemAt at found
        split at found
        · cases found
        · exact List.mem_of_getElem? found
      have inside := valid.wellFormed.slots_lt member
      rw [valid.size_eq] at inside
      rw [found] at called
      apply valid.meets_of_granted called rfl
      · exact Nat.one_pos
      · exact Nat.le_of_eq asks.symm
      · exact inside
      · rw [blocked, itemAt_contents, found]
        exact Option.some_ne_none _
      · exact valid
      · exact steps

theorem meets
    (call : QueueCall T) :
    Meets size store call := by
  cases call with
  | Push element => exact valid.meets_push element
  | PushElements elements => exact valid.meets_pushElements elements
  | Pop => exact valid.meets_pop
  | PopElements nElements => exact valid.meets_popElements nElements
  | Peek =>
      apply valid.meets_look _ rfl Iff.rfl rfl
      rw [StoredQueue.call, valid.peek_eq]
  | Subscript index =>
      apply valid.meets_look _ rfl Iff.rfl rfl
      rw [StoredQueue.call, valid.wellFormed.subscript]

end Valid

/-- Every run of calls on the queue of a size is a run of a bounded queue of
that capacity: the elements come out in the order in which they went in, the
observers agree with the bounded queue, and every call is granted the places
that it should be. -/
theorem queue_refinesFifo
    (positive : 1 ≤ size)
    {taken : List (StoredQueue T × QueueCall T)}
    (run : Run (fun store => store = Initialize data size) Steps taken store) :
    FifoRun size
        (taken.map fun entry => (entry.1.contents, entry.1.event entry.2))
        store.contents ∧
      taken.flatMap (fun entry => (entry.1.event entry.2).entering) =
        taken.flatMap (fun entry => (entry.1.event entry.2).leaving) ++
          store.contents ∧
      store.queue.NumberOfElements = store.contents.length ∧
      (store.queue.IsEmpty = true ↔ store.contents = []) ∧
      (store.queue.IsFull = true ↔ store.contents.length = size) ∧
      (∀ index, (store.queue.Subscript index).map store.m_data =
        itemAt store.contents index) ∧
      ∀ entry ∈ taken, entry.1.Grants entry.2 := by
  have unconditional : ∀ entry ∈ taken, True := fun _ _ => trivial
  have refined : store.Valid size ∧ FifoRun size
      (taken.map fun entry => (entry.1.contents, entry.1.event entry.2))
      store.contents := by
    apply run.refines contents event (Valid size) (fun _ _ => True)
    · rintro store rfl
      exact ⟨initialize_valid positive, rfl⟩
    · rintro store call later valid - rfl
      exact ⟨(valid.meets call).valid, (valid.meets call).steps⟩
    · exact unconditional
  obtain ⟨valid, image⟩ := refined
  have ordered := FifoRun.inOrder image
  rw [List.flatMap_map, List.flatMap_map] at ordered
  refine ⟨image, ordered, length_contents.symm, valid.isEmpty_iff,
    valid.full_iff, ?_, ?_⟩
  · intro index
    rw [valid.wellFormed.subscript, itemAt_contents]
  · apply run.forall_of (Valid size) Grants (fun _ _ => True)
    · rintro store rfl
      exact initialize_valid positive
    · rintro store call later valid - rfl
      exact (valid.meets call).valid
    · intro store call later valid _ _
      exact (valid.meets call).grants
    · exact unconditional

/-- Three places that are filled round the end. -/
theorem queue_refinesFifo_three :
    ∃ (taken : List (StoredQueue Nat × QueueCall Nat)) (store : StoredQueue Nat),
      store.contents = [2, 3, 5] ∧ FifoRun 3
        (taken.map fun entry => (entry.1.contents, entry.1.event entry.2))
        store.contents := by
  let begins : StoredQueue Nat → Prop :=
    fun store => store = Initialize (fun _ => 0) 3
  let first : StoredQueue Nat := Initialize (fun _ => 0) 3
  let second := (first.call (.PushElements [1, 2])).2
  let third := (second.call (.PopElements 1)).2
  let fourth := (third.call (.PushElements [3, 4])).2
  have filled : Run begins Steps (_ ++ [(first, .PushElements [1, 2])]) second :=
    .next (.start rfl) rfl
  have popped : Run begins Steps (_ ++ [(second, .PopElements 1)]) third :=
    .next filled rfl
  have refilled : Run begins Steps (_ ++ [(third, .PushElements [3, 4])]) fourth :=
    .next popped rfl
  have all : Run begins Steps (_ ++ [(fourth, .Push 5)]) (fourth.call (.Push 5)).2 :=
    .next refilled rfl
  exact ⟨_, _, by decide, (queue_refinesFifo (by decide) all).1⟩

end StoredQueue

end Interrupts

end NanoClr
