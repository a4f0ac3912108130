import NanoClr.Hal.RingBufferRuns

/-!
# The ring buffer as a bounded queue

The calls of the ring buffer as events of a queue of elements, and the runs in
which the buffer is that queue.
-/

namespace NanoClr

namespace Hal

/-- A call, with the bytes of the element or of the caller's array. -/
inductive RingCall (β : Type)
  | Push (data : List β)
  | PushArray (data : List β) (length : Nat)
  | PopArray (data : List β) (length : Nat)
  | Pop (length : Nat)
  | OptimizeSequence

namespace RingCall

variable {β : Type}

/-- The bytes of the caller's element or array. -/
def data : RingCall β → List β
  | Push data | PushArray data _ | PopArray data _ => data
  | Pop _ | OptimizeSequence => []

/-- The bytes are one element, or an array of elements that fits into the
addresses. -/
def Legal (dataSize : Nat) : RingCall β → Prop
  | Push data => data.length = dataSize
  | PushArray data length | PopArray data length =>
      data.length = length * dataSize ∧ data.length < 2 ^ 32
  | Pop _ | OptimizeSequence => True

end RingCall

/-- An access lies in the storage, or in the caller's data. -/
def Access.Inside (capacity data : Nat) : Access → Prop
  | .buffer start count => start + count ≤ capacity
  | .data start count => start + count ≤ data

namespace HAL_RingBuffer

variable {β : Type}

section Calls

variable (memcpy : Memcpy β) (ring : HAL_RingBuffer β)

/-- What a call does. -/
def call : RingCall β → Outcome β
  | .Push data => ring.Push data
  | .PushArray data length => ring.PushArray data length
  | .PopArray data length => ring.PopArray data length
  | .Pop length => ring.Pop length
  | .OptimizeSequence => ring.OptimizeSequence memcpy

/-- The event of a bounded queue that a call stands for, by what it returns. -/
def event (call : RingCall β) : FifoEvent (List β) :=
  let outcome := ring.call memcpy call
  match call with
  | .Push data => .put [data] outcome.returned
  | .PushArray data length =>
      .put (elementsOf ring._dataSize length data) outcome.returned
  | .PopArray _ length =>
      .take length
        (elementsOf ring._dataSize outcome.returned outcome.data)
  | .Pop length => .take length (ring.elements.take outcome.returned)
  | .OptimizeSequence => .keep

/-- No byte outside of the storage and of the caller's data is touched. -/
def Inside (call : RingCall β) : Prop :=
  ∀ access ∈ (ring.call memcpy call).accesses,
    access.Inside ring._capacity call.data.length

/-- The contents are in the storage from `Reader()` on. -/
def Contiguous : Prop :=
  cellsAt ring._buffer ring.Reader ring._size = ring.bytes

/-- The call is one whose arithmetic is right: pointers to elements are moved
by bytes only where an element is a byte or the index is 0, no more is taken
than there is, and the contents are moved only in front of themselves. -/
def Sound : RingCall β → Prop
  | .Push _ =>
      ring._size = ring._capacity ∨ ring._dataSize = 1 ∨ ring._write_index = 0
  | .PushArray _ length =>
      length = 0 ∨ ring._size = ring._capacity ∨ ring._dataSize = 1 ∨
        ring._write_index = 0
  | .PopArray _ length =>
      length = 0 ∨ ring._size = 0 ∨
        (length ≤ ring.Length ∧ (ring._dataSize = 1 ∨ ring._read_index = 0))
  | .Pop length =>
      length = 0 ∨ ring._size = 0 ∨ length ≤ ring.Length ∨
        wrap (length * ring._dataSize) = ring._size
  | .OptimizeSequence =>
      ring._size = 0 ∨ ring._read_index = 0 ∨
        (ring._dataSize = 1 ∧ ring._read_index < ring._write_index ∧
          ring._size ≤ ring._read_index)

/-- One legal call. -/
def Steps (call : RingCall β) (later : HAL_RingBuffer β) : Prop :=
  call.Legal ring._dataSize ∧ (ring.call memcpy call).later = later

/-- A call returns the number of elements that go in or come out, stays in the
storage, and leaves the contents contiguous where it is to optimize them. -/
structure Behaves (call : RingCall β) : Prop where
  returned : (ring.call memcpy call).returned = (ring.event memcpy call).count
  inside : ring.Inside memcpy call
  contiguous : call = .OptimizeSequence →
    (ring.call memcpy call).later.Contiguous

/-- A call keeps the storage, and does to the elements what its event does to a
bounded queue that takes and gives what it can. -/
structure Meets (dataSize size : Nat) (call : RingCall β) : Prop where
  valid : (ring.call memcpy call).later.Valid dataSize size
  steps : FifoStep size ring.elements (ring.event memcpy call)
    (ring.call memcpy call).later.elements
  greedy : (ring.event memcpy call).Greedy size ring.elements
  behaves : ring.Behaves memcpy call

end Calls

namespace Valid

variable
  {memcpy : Memcpy β}
  {dataSize size : Nat}
  {ring later : HAL_RingBuffer β}
  (positive : 0 < dataSize)
  (addressable : size * dataSize < 2 ^ 32)
  (valid : ring.Valid dataSize size)

omit valid in
/-- A pointer is at its index where an element is a byte or the index is 0. -/
theorem pointer_eq
    {index : Nat}
    (aligned : ring._dataSize = 1 ∨ index = 0) :
    ring.pointer index = index := by
  rcases aligned with byte | first
  · rw [pointer, byte, Nat.mul_one]
  · rw [first, pointer, Nat.zero_mul]

include valid

theorem place_of_notFull
    (notFull : ring._size ≠ ring._capacity) :
    ring._read_index < ring._capacity := by
  have fits := valid.size_le
  exact valid.read_index.resolve_right fun none_ => by omega

theorem place_of_nonempty
    (nonempty : ring._size ≠ 0) :
    ring._read_index < ring._capacity := by
  have fits := valid.size_le
  exact valid.read_index.resolve_right fun none_ => by omega

include positive

/-- A call that puts in what there is room for. -/
theorem meets_of_put
    {call : RingCall β}
    {offered : List (List β)}
    {accepted : Nat}
    (behaves : ring.Behaves memcpy call)
    (labelled : ring.event memcpy call = .put offered accepted)
    (greedy : accepted = min offered.length (size - ring.Length))
    (laterValid : (ring.call memcpy call).later.Valid dataSize size)
    (appended : (ring.call memcpy call).later.elements =
      ring.elements ++ offered.take accepted) :
    ring.Meets memcpy dataSize size call := by
  have fits := valid.length_le positive
  refine ⟨laterValid, ?_, ?_, behaves⟩
  · rw [labelled]
    refine ⟨by omega, ?_, ?_, appended⟩
    · rw [length_elements, ← List.length_pos_iff]
      omega
    · rw [length_elements]
      omega
  · rw [labelled, FifoEvent.Greedy, length_elements]
    exact greedy

omit valid positive in
/-- A call that takes out what there is. -/
theorem meets_of_take
    {call : RingCall β}
    {length : Nat}
    {taken : List (List β)}
    (behaves : ring.Behaves memcpy call)
    (labelled : ring.event memcpy call = .take length taken)
    (greedy : taken.length = min length ring.Length)
    (laterValid : (ring.call memcpy call).later.Valid dataSize size)
    (split : ring.elements = taken ++ (ring.call memcpy call).later.elements) :
    ring.Meets memcpy dataSize size call := by
  refine ⟨laterValid, ?_, ?_, behaves⟩
  · rw [labelled]
    refine ⟨by omega, ?_, split⟩
    rw [← List.length_pos_iff, ← List.length_pos_iff, length_elements]
    omega
  · rw [labelled, FifoEvent.Greedy, length_elements]
    exact greedy

omit valid positive in
theorem behaves_of_refused
    {call : RingCall β}
    {data : List β}
    (called : ring.call memcpy call = ring.refuse data)
    (nothing : (ring.event memcpy call).count = 0)
    (other : call ≠ .OptimizeSequence) :
    ring.Behaves memcpy call where
  returned := by
    rw [called, nothing]
    rfl
  inside := by
    rw [Inside, called]
    intro access member
    cases member
  contiguous := fun optimizes => absurd optimizes other

include addressable

theorem meets_push
    {data : List β}
    (legal : data.length = dataSize)
    (sound : ring.Sound (.Push data)) :
    ring.Meets memcpy dataSize size (.Push data) := by
  have atMost := valid.length_le positive
  by_cases full : ring._size = ring._capacity
  · have called : ring.call memcpy (.Push data) = ring.refuse data := by
      rw [call, Push, if_pos full]
    have labelled : ring.event memcpy (.Push data) = .put [data] 0 := by
      rw [event, called]
      rfl
    apply valid.meets_of_put positive _ labelled
    · rw [(valid.full_iff positive).mp full, Nat.sub_self, Nat.min_zero]
    · rw [called]
      exact valid
    · rw [called]
      exact (List.append_nil _).symm
    · apply behaves_of_refused called _ nofun
      rw [labelled]
      rfl
  · have isPlace := valid.place_of_notFull full
    have capacity := valid.capacity_lt addressable
    have writePlace : ring._write_index < ring._capacity := by
      rw [valid.write_eq]
      exact windowEnd_lt isPlace
    have notAll : ring.Length ≠ size := by
      rwa [Ne, ← valid.full_iff positive]
    have room : dataSize ≤ ring._capacity := by
      rw [valid.capacity_eq]
      exact Nat.le_mul_of_pos_left dataSize (by omega)
    have aligned := sound.resolve_left full
    have inside : ring._write_index + data.length ≤ ring._capacity := by
      rw [legal]
      rcases aligned with byte | first
      · rw [← valid.dataSize_eq, byte]
        exact writePlace
      · omega
    have grown : ring._size + dataSize ≤ ring._capacity := by
      rw [valid.size_eq, valid.capacity_eq, ← Nat.succ_mul]
      exact Nat.mul_le_mul_right dataSize (Nat.lt_of_le_of_ne atMost notAll)
    have moved := moved_inside capacity writePlace inside
    have called : ring.call memcpy (.Push data) =
        ⟨1, [.buffer ring._write_index data.length], data, ring.extended
          (writeCells ring._buffer ring._write_index data) data.length⟩ := by
      rw [legal] at moved
      simp only [call, Push, if_neg full, pointer_eq aligned, valid.dataSize_eq,
        moved, legal, wrap_of_lt (Nat.lt_of_le_of_lt grown capacity), extended]
    have labelled : ring.event memcpy (.Push data) = .put [data] 1 := by
      rw [event, called]
    have one : data.length = 1 * dataSize := by rw [legal, Nat.one_mul]
    obtain ⟨written, kept⟩ := written_inside inside
    obtain ⟨laterValid, appended⟩ :=
      valid.pushed positive (by omega) isPlace one written kept
    rw [elementsOf, List.take_of_length_le (Nat.le_of_eq legal)] at appended
    apply valid.meets_of_put positive _ labelled
    · rw [List.length_singleton, Nat.min_eq_left (by omega)]
    · rw [called]
      exact laterValid
    · rw [called]
      exact appended
    · refine ⟨?_, ?_, nofun⟩
      · rw [called, labelled]
        rfl
      · rw [Inside, called, List.forall_mem_singleton]
        exact inside

omit positive in
/-- An array is written as far as there is room. -/
theorem lengthToWrite_eq
    {length : Nat}
    (fits : length * dataSize < 2 ^ 32) :
    (if wrap (length * dataSize) < wrapSub ring._capacity ring._size then
        wrap (length * dataSize)
      else wrapSub ring._capacity ring._size) =
        min length (size - ring.Length) * dataSize := by
  rw [wrap_of_lt fits,
    wrapSub_of_le valid.size_le (valid.capacity_lt addressable),
    valid.capacity_eq, valid.size_eq, ← Nat.sub_mul, ← Nat.mul_min_mul_right]
  split <;> omega

theorem call_pushArray
    {data : List β}
    {length : Nat}
    (legal : data.length = length * dataSize)
    (fits : data.length < 2 ^ 32)
    (some_ : length ≠ 0)
    (notFull : ring._size ≠ ring._capacity)
    (aligned : ring._dataSize = 1 ∨ ring._write_index = 0) :
    ∃ accesses memory, ring.call memcpy (.PushArray data length) =
        ⟨min length (size - ring.Length), accesses, data, ring.extended memory
          (data.take
            (min length (size - ring.Length) * dataSize)).length⟩ ∧
      (∀ access ∈ accesses, access.Inside ring._capacity data.length) ∧
      (window ring._capacity ring._write_index
        (data.take (min length (size - ring.Length) * dataSize)).length).map
          memory = data.take (min length (size - ring.Length) * dataSize) ∧
      ∀ place ∉ window ring._capacity ring._write_index
        (data.take (min length (size - ring.Length) * dataSize)).length,
          memory place = ring._buffer place := by
  have isPlace := valid.place_of_notFull notFull
  have capacity := valid.capacity_lt addressable
  have writePlace : ring._write_index < ring._capacity := by
    rw [valid.write_eq]
    exact windowEnd_lt isPlace
  have lengthToWrite := valid.lengthToWrite_eq addressable (legal ▸ fits)
  generalize count_eq : min length (size - ring.Length) = count at *
  have whole : (data.take (count * dataSize)).length = count * dataSize := by
    rw [List.length_take, legal, Nat.min_eq_left]
    exact Nat.mul_le_mul_right dataSize (by omega)
  have fewer : count * dataSize ≤ data.length := by
    rw [← whole]
    exact List.length_take_le' _ _
  have grown : ring._size + count * dataSize ≤ ring._capacity := by
    have room : ring.Length + count ≤ size := by
      have atMost := valid.length_le positive
      omega
    rw [valid.size_eq, valid.capacity_eq, ← Nat.add_mul]
    exact Nat.mul_le_mul_right dataSize room
  have returned : count * dataSize / dataSize = count :=
    Nat.mul_div_cancel count positive
  have remaining := wrapSub_of_le (Nat.le_of_lt writePlace) capacity
  have newSize : wrap (ring._size + count * dataSize) =
      ring._size + count * dataSize :=
    wrap_of_lt (Nat.lt_of_le_of_lt grown capacity)
  by_cases single : count * dataSize ≤ ring._capacity - ring._write_index
  · have inside : ring._write_index + (data.take (count * dataSize)).length ≤
        ring._capacity := by omega
    have moved := moved_inside capacity writePlace inside
    obtain ⟨written, kept⟩ := written_inside inside
    refine ⟨[.data 0 (count * dataSize),
      .buffer ring._write_index (count * dataSize)], _, ?_, ?_, written, kept⟩
    · rw [whole] at moved
      simp only [call, PushArray, if_neg some_, if_neg notFull,
        pointer_eq aligned, valid.dataSize_eq, lengthToWrite, remaining,
        if_pos single, returned, moved, newSize, extended, whole]
    · simp only [List.forall_mem_cons, Access.Inside]
      refine ⟨by omega, by omega, List.forall_mem_nil _⟩
  · have byte : ring._dataSize = 1 := by
      apply aligned.resolve_right
      intro first
      omega
    have round : ring._capacity ≤
        ring._write_index + (data.take (count * dataSize)).length := by omega
    have atMost : (data.take (count * dataSize)).length ≤ ring._capacity := by
      omega
    have moved : wrapSub (count * dataSize)
        (ring._capacity - ring._write_index) =
          windowEnd ring._capacity ring._write_index (count * dataSize) :=
      moved_round capacity writePlace (by omega) (by omega)
    have second : wrapSub (count * dataSize)
        (ring._capacity - ring._write_index) =
          count * dataSize - (ring._capacity - ring._write_index) :=
      wrapSub_of_le (by omega) (by omega)
    obtain ⟨written, kept⟩ := written_round writePlace round atMost
    rw [List.take_take, Nat.min_eq_left (by omega), List.drop_take] at written kept
    refine ⟨[.data 0 (ring._capacity - ring._write_index),
      .buffer ring._write_index (ring._capacity - ring._write_index),
      .data (ring._capacity - ring._write_index)
        (count * dataSize - (ring._capacity - ring._write_index)),
      .buffer 0 (count * dataSize - (ring._capacity - ring._write_index))],
      _, ?_, ?_, written, kept⟩
    · simp only [call, PushArray, if_neg some_, if_neg notFull,
        pointer_eq aligned, pointer_eq (.inl byte), valid.dataSize_eq,
        lengthToWrite, remaining, if_neg single, returned, newSize, extended,
        whole, ← moved, second]
    · simp only [List.forall_mem_cons, Access.Inside]
      refine ⟨by omega, by omega, by omega, by omega, List.forall_mem_nil _⟩

theorem meets_pushArray
    {data : List β}
    {length : Nat}
    (legal : data.length = length * dataSize)
    (fits : data.length < 2 ^ 32)
    (sound : ring.Sound (.PushArray data length)) :
    ring.Meets memcpy dataSize size (.PushArray data length) := by
  by_cases refused : length = 0 ∨ ring._size = ring._capacity
  · have called : ring.call memcpy (.PushArray data length) =
        ring.refuse data := by
      rw [call, PushArray]
      rcases refused with none_ | full
      · rw [if_pos none_]
      · rw [if_pos full, ite_self]
    have labelled : ring.event memcpy (.PushArray data length) =
        .put (elementsOf ring._dataSize length data) 0 := by
      rw [event, called]
      rfl
    apply valid.meets_of_put positive _ labelled
    · rw [length_elementsOf]
      rcases refused with none_ | full
      · rw [none_, Nat.zero_min]
      · rw [(valid.full_iff positive).mp full, Nat.sub_self, Nat.min_zero]
    · rw [called]
      exact valid
    · rw [called]
      exact (List.append_nil _).symm
    · apply behaves_of_refused called _ nofun
      rw [labelled]
      rfl
  · rw [not_or] at refused
    obtain ⟨some_, notFull⟩ := refused
    have isPlace := valid.place_of_notFull notFull
    have aligned := (sound.resolve_left some_).resolve_left notFull
    obtain ⟨accesses, memory, called, inside, written, kept⟩ :=
      valid.call_pushArray positive addressable legal fits some_ notFull
        aligned
    generalize count_eq : min length (size - ring.Length) = count at *
    have fewer : count * dataSize ≤ data.length := by
      rw [legal]
      exact Nat.mul_le_mul_right dataSize (by omega)
    have room : ring.Length + count ≤ size := by
      have atMost := valid.length_le positive
      omega
    have labelled : ring.event memcpy (.PushArray data length) =
        .put (elementsOf dataSize length data) count := by
      rw [event, called, valid.dataSize_eq]
    have whole : (data.take (count * dataSize)).length = count * dataSize := by
      rw [List.length_take, Nat.min_eq_left fewer]
    obtain ⟨laterValid, appended⟩ :=
      valid.pushed positive room isPlace whole written kept
    rw [elementsOf_take fewer] at appended
    apply valid.meets_of_put positive _ labelled
    · rw [length_elementsOf, count_eq]
    · rw [called]
      exact laterValid
    · rw [called, take_elementsOf (by omega)]
      exact appended
    · refine ⟨?_, ?_, nofun⟩
      · rw [called, labelled]
        rfl
      · rw [Inside, called]
        exact inside

theorem call_popArray
    {data : List β}
    {length : Nat}
    (legal : data.length = length * dataSize)
    (fits : data.length < 2 ^ 32)
    (some_ : length ≠ 0)
    (nonempty : ring._size ≠ 0)
    (enough : length ≤ ring.Length)
    (aligned : ring._dataSize = 1 ∨ ring._read_index = 0) :
    ∃ accesses, ring.call memcpy (.PopArray data length) =
        ⟨length, accesses,
          (window ring._capacity ring._read_index (length * dataSize)).map
            ring._buffer,
          ring.popped (length * dataSize)⟩ ∧
      ∀ access ∈ accesses, access.Inside ring._capacity data.length := by
  have isPlace := valid.place_of_nonempty nonempty
  have capacity := valid.capacity_lt addressable
  have sizeFits := valid.size_le
  have lengthToRead : wrap (length * dataSize) = length * dataSize :=
    wrap_of_lt (legal ▸ fits)
  have remaining := wrapSub_of_le (Nat.le_of_lt isPlace) capacity
  have returned : length * dataSize / dataSize = length :=
    Nat.mul_div_cancel length positive
  have fewer : length * dataSize ≤ ring._size := by
    rw [valid.size_eq]
    exact Nat.mul_le_mul_right dataSize enough
  by_cases single : length * dataSize ≤ ring._capacity - ring._read_index
  · refine ⟨[.buffer ring._read_index (length * dataSize),
      .data 0 (length * dataSize)], ?_, ?_⟩
    · rw [map_window_eq_cellsAt (by omega)]
      have all : overwrite data 0
          (cellsAt ring._buffer ring._read_index (length * dataSize)) =
            cellsAt ring._buffer ring._read_index (length * dataSize) := by
        rw [overwrite_start, length_cellsAt,
          List.drop_of_length_le (Nat.le_of_eq legal), List.append_nil]
      simp only [call, PopArray, if_neg some_, if_neg nonempty,
        pointer_eq aligned, valid.dataSize_eq, lengthToRead, remaining,
        if_pos single, returned, all]
    · simp only [List.forall_mem_cons, Access.Inside]
      exact ⟨by omega, by omega, List.forall_mem_nil _⟩
  · have byte : ring._dataSize = 1 := by
      apply aligned.resolve_right
      intro first
      omega
    have second : wrapSub (length * dataSize)
        (ring._capacity - ring._read_index) =
          length * dataSize - (ring._capacity - ring._read_index) :=
      wrapSub_of_le (by omega) (by omega)
    refine ⟨[.buffer ring._read_index (ring._capacity - ring._read_index),
      .data 0 (ring._capacity - ring._read_index),
      .buffer 0 (length * dataSize - (ring._capacity - ring._read_index)),
      .data (ring._capacity - ring._read_index)
        (length * dataSize - (ring._capacity - ring._read_index))], ?_, ?_⟩
    · have parts : (window ring._capacity ring._read_index
          (length * dataSize)).map ring._buffer =
            cellsAt ring._buffer ring._read_index
              (ring._capacity - ring._read_index) ++
            cellsAt ring._buffer 0
              (length * dataSize - (ring._capacity - ring._read_index)) := by
        rw [window_wraps isPlace (by omega) (by omega), List.map_append,
          map_range_eq_cellsAt, map_range_eq_cellsAt]
        congr 2
        omega
      have all : overwrite
          (overwrite data 0 (cellsAt ring._buffer ring._read_index
            (ring._capacity - ring._read_index)))
          (ring._capacity - ring._read_index)
          (cellsAt ring._buffer 0
            (length * dataSize - (ring._capacity - ring._read_index))) =
            (window ring._capacity ring._read_index (length * dataSize)).map
              ring._buffer := by
        have twice := overwrite_twice data
          (cellsAt ring._buffer ring._read_index
            (ring._capacity - ring._read_index))
          (cellsAt ring._buffer 0
            (length * dataSize - (ring._capacity - ring._read_index)))
        rw [length_cellsAt, length_cellsAt] at twice
        rw [twice, List.drop_of_length_le (by omega), List.append_nil, parts]
      simp only [call, PopArray, if_neg some_, if_neg nonempty,
        pointer_eq aligned, pointer_eq (.inl byte), valid.dataSize_eq,
        lengthToRead, remaining, if_neg single, returned, second, all]
    · simp only [List.forall_mem_cons, Access.Inside]
      exact ⟨by omega, by omega, by omega, by omega, List.forall_mem_nil _⟩

theorem meets_popArray
    {data : List β}
    {length : Nat}
    (legal : data.length = length * dataSize)
    (fits : data.length < 2 ^ 32)
    (sound : ring.Sound (.PopArray data length)) :
    ring.Meets memcpy dataSize size (.PopArray data length) := by
  by_cases refused : length = 0 ∨ ring._size = 0
  · have called : ring.call memcpy (.PopArray data length) =
        ring.refuse data := by
      rw [call, PopArray]
      rcases refused with none_ | empty
      · rw [if_pos none_]
      · rw [if_pos empty, ite_self]
    have labelled : ring.event memcpy (.PopArray data length) =
        .take length [] := by
      rw [event, called]
      rfl
    apply meets_of_take _ labelled
    · rcases refused with none_ | empty
      · rw [none_, Nat.zero_min]
        rfl
      · rw [(valid.empty_iff positive).mp empty, Nat.min_zero]
        rfl
    · rw [called]
      exact valid
    · rw [called]
      rfl
    · apply behaves_of_refused called _ nofun
      rw [labelled]
      rfl
  · rw [not_or] at refused
    obtain ⟨some_, nonempty⟩ := refused
    obtain ⟨enough, aligned⟩ :=
      (sound.resolve_left some_).resolve_left nonempty
    have isPlace := valid.place_of_nonempty nonempty
    obtain ⟨accesses, called, inside⟩ :=
      valid.call_popArray positive addressable legal fits some_ nonempty enough
        aligned
    obtain ⟨laterValid, split⟩ :=
      valid.popped positive addressable enough isPlace
    have labelled : ring.event memcpy (.PopArray data length) =
        .take length (elementsOf dataSize length
          ((window ring._capacity ring._read_index (length * dataSize)).map
            ring._buffer)) := by
      rw [event, called, valid.dataSize_eq]
    apply meets_of_take _ labelled
    · rw [length_elementsOf, Nat.min_eq_left enough]
    · rw [called]
      exact laterValid
    · rw [called]
      exact split
    · refine ⟨?_, ?_, nofun⟩
      · rw [called, labelled]
        exact length_elementsOf.symm
      · rw [Inside, called]
        exact inside

theorem meets_pop
    {length : Nat}
    (sound : ring.Sound (.Pop length)) :
    ring.Meets memcpy dataSize size (.Pop length) := by
  by_cases refused : length = 0 ∨ ring._size = 0
  · have called : ring.call memcpy (.Pop length) = ring.refuse [] := by
      rw [call, Pop]
      rcases refused with none_ | empty
      · rw [if_pos none_]
      · rw [if_pos empty, ite_self]
    have labelled : ring.event memcpy (.Pop length) = .take length [] := by
      rw [event, called]
      rfl
    apply meets_of_take _ labelled
    · rcases refused with none_ | empty
      · rw [none_, Nat.zero_min]
        rfl
      · rw [(valid.empty_iff positive).mp empty, Nat.min_zero]
        rfl
    · rw [called]
      exact valid
    · rw [called]
      rfl
    · apply behaves_of_refused called _ nofun
      rw [labelled]
      rfl
  · rw [not_or] at refused
    obtain ⟨some_, nonempty⟩ := refused
    have enough := (sound.resolve_left some_).resolve_left nonempty
    have isPlace := valid.place_of_nonempty nonempty
    have capacity := valid.capacity_lt addressable
    have sizeFits := valid.size_le
    have lengthToRead : wrap (length * dataSize) =
        min length ring.Length * dataSize := by
      rcases Nat.le_total length ring.Length with fewer | more
      · have fewerBytes : length * dataSize ≤ ring.Length * dataSize :=
          Nat.mul_le_mul_right dataSize fewer
        rw [← valid.size_eq] at fewerBytes
        rw [Nat.min_eq_left fewer, wrap_of_lt (by omega)]
      · rw [Nat.min_eq_right more, ← valid.size_eq]
        rcases enough with fewer | all
        · have same : length = ring.Length := Nat.le_antisymm fewer more
          rw [same, ← valid.size_eq, wrap_of_lt (by omega)]
        · rw [← valid.dataSize_eq]
          exact all
    generalize count_eq : min length ring.Length = count at *
    have fewer : count ≤ ring.Length := by omega
    have called : ring.call memcpy (.Pop length) =
        ⟨count, [], [], ring.popped (count * dataSize)⟩ := by
      simp only [call, Pop, if_neg some_, if_neg nonempty, valid.dataSize_eq,
        lengthToRead, Nat.mul_div_cancel count positive]
    obtain ⟨laterValid, split⟩ :=
      valid.popped positive addressable fewer isPlace
    have labelled : ring.event memcpy (.Pop length) =
        .take length (ring.elements.take count) := by
      rw [event, called]
    have taken : (ring.elements.take count).length = count := by
      rw [List.length_take, length_elements]
      omega
    apply meets_of_take _ labelled
    · rw [taken, count_eq]
    · rw [called]
      exact laterValid
    · rw [called, split, List.take_left' length_elementsOf]
    · refine ⟨?_, ?_, nofun⟩
      · rw [called, labelled]
        exact taken.symm
      · rw [Inside, called]
        exact nofun

omit positive addressable valid in
/-- Contents that do not go round the end are behind each other. -/
theorem bytes_inside
    (inside : ring._read_index + ring._size ≤ ring._capacity) :
    ring.bytes = cellsAt ring._buffer ring._read_index ring._size := by
  rw [bytes, map_window_eq_cellsAt inside]

omit positive addressable valid in
/-- The contents that are moved to the start of the storage. -/
theorem call_optimizeSequence
    (copies : CopiesApart memcpy)
    (nonempty : ring._size ≠ 0)
    (moves : ring._read_index ≠ 0)
    (byte : ring._dataSize = 1)
    (apart : ring._size ≤ ring._read_index) :
    ring._read_index < ring._write_index →
    ring.call memcpy .OptimizeSequence =
      ⟨0, [.buffer ring._read_index ring._size, .buffer 0 ring._size], [],
        { ring with
          _buffer := writeCells ring._buffer 0
            (cellsAt ring._buffer ring._read_index ring._size)
          _read_index := 0
          _write_index := ring._size }⟩ := by
  intro before
  have copied := copies ring._buffer 0 ring._read_index ring._size
    (.inl (by omega))
  simp only [call, OptimizeSequence, if_neg nonempty, if_neg moves,
    pointer_eq (.inl byte), if_pos before, copied]

omit positive addressable in
theorem meets_optimizeSequence
    (copies : CopiesApart memcpy)
    (sound : ring.Sound .OptimizeSequence) :
    ring.Meets memcpy dataSize size .OptimizeSequence := by
  have sizeFits := valid.size_le
  by_cases refused : ring._size = 0 ∨ ring._read_index = 0
  · have called : ring.call memcpy .OptimizeSequence = ring.refuse [] := by
      rw [call, OptimizeSequence]
      rcases refused with empty | first
      · rw [if_pos empty]
      · rw [if_pos first, ite_self]
    have contiguous : ring.Contiguous := by
      rcases refused with empty | first
      · rw [Contiguous, bytes, empty]
        rfl
      · rw [Contiguous, Reader, pointer_eq (.inr first), bytes_inside]
        omega
    constructor
    · rw [called]
      exact valid
    · rw [called]
      exact rfl
    · trivial
    · refine ⟨?_, ?_, ?_⟩
      · rw [called]
        rfl
      · rw [Inside, called]
        exact List.forall_mem_nil _
      · intro _
        rw [called]
        exact contiguous
  · rw [not_or] at refused
    obtain ⟨nonempty, moves⟩ := refused
    obtain ⟨byte, before, apart⟩ :=
      (sound.resolve_left nonempty).resolve_left moves
    have isPlace := valid.place_of_nonempty nonempty
    have write_eq := valid.write_eq
    rw [windowEnd_eq isPlace] at write_eq
    have inside : ring._read_index + ring._size < ring._capacity := by
      by_contra round
      rw [Nat.mod_eq_sub_mod (by omega), Nat.mod_eq_of_lt (by omega)] at write_eq
      omega
    have notAll : ring._size < ring._capacity := by omega
    have fromStart : 0 + ring._size ≤ ring._capacity := by omega
    have called :=
      call_optimizeSequence copies nonempty moves byte apart before
    have moved : cellsAt (writeCells ring._buffer 0
        (cellsAt ring._buffer ring._read_index ring._size)) 0 ring._size =
          ring.bytes := by
      have held : Holds (writeCells ring._buffer 0
          (cellsAt ring._buffer ring._read_index ring._size)) 0
            (cellsAt ring._buffer ring._read_index ring._size) :=
        holds_writeCells
      rw [Holds, length_cellsAt] at held
      rw [held, bytes_inside (by omega)]
    have laterBytes :
        (ring.call memcpy .OptimizeSequence).later.bytes = ring.bytes := by
      rw [called, bytes, map_window_eq_cellsAt fromStart]
      exact moved
    constructor
    · rw [called]
      exact {
        dataSize_eq := valid.dataSize_eq
        capacity_eq := valid.capacity_eq
        size_eq := valid.size_eq
        size_le := sizeFits
        read_index := .inl (Nat.zero_lt_of_lt isPlace)
        write_eq := by
          rw [windowEnd_eq (Nat.zero_lt_of_lt isPlace), Nat.zero_add,
            Nat.mod_eq_of_lt notAll] }
    · show _ = _
      rw [elements, laterBytes, called]
      rfl
    · trivial
    · refine ⟨?_, ?_, ?_⟩
      · rw [called]
        rfl
      · rw [Inside, called]
        simp only [List.forall_mem_cons, Access.Inside]
        exact ⟨Nat.le_of_lt inside, fromStart, List.forall_mem_nil _⟩
      · intro _
        rw [Contiguous, laterBytes, called]
        show cellsAt _ (0 * ring._dataSize) _ = _
        rw [Nat.zero_mul]
        exact moved

theorem meets
    (copies : CopiesApart memcpy)
    {call : RingCall β}
    (legal : call.Legal dataSize)
    (sound : ring.Sound call) :
    ring.Meets memcpy dataSize size call := by
  cases call with
  | Push data => exact valid.meets_push positive addressable legal sound
  | PushArray data length =>
      exact valid.meets_pushArray positive addressable legal.1 legal.2 sound
  | PopArray data length =>
      exact valid.meets_popArray positive addressable legal.1 legal.2 sound
  | Pop length => exact valid.meets_pop positive addressable sound
  | OptimizeSequence => exact valid.meets_optimizeSequence copies sound

end Valid

variable
  {memcpy : Memcpy β}
  {dataSize size : Nat}
  {data : Nat → β}
  {ring : HAL_RingBuffer β}
  {taken : List (HAL_RingBuffer β × RingCall β)}

/-- The buffer is a bounded queue of elements in a run: the elements come out in
the order in which they went in, every call takes and gives what it can and
behaves, and the observers agree with the queue. -/
structure IsFifo
    (memcpy : Memcpy β)
    (size : Nat)
    (taken : List (HAL_RingBuffer β × RingCall β))
    (ring : HAL_RingBuffer β) : Prop where
  greedy : GreedyRun size
    (taken.map fun entry => (entry.1.elements, entry.1.event memcpy entry.2))
    ring.elements
  inOrder : taken.flatMap (fun entry => (entry.1.event memcpy entry.2).entering) =
    taken.flatMap (fun entry => (entry.1.event memcpy entry.2).leaving) ++
      ring.elements
  behaves : ∀ entry ∈ taken, entry.1.Behaves memcpy entry.2
  length : ring.Length = ring.elements.length
  capacity : ring.Capacity = size

/-- Every run whose calls are all sound is a run of a bounded queue. -/
theorem ringBuffer_isFifo_of_sound
    (copies : CopiesApart memcpy)
    (positive : 0 < dataSize)
    (addressable : size * dataSize < 2 ^ 32)
    (run : Run (fun ring => ring = Initialize dataSize data size)
      (Steps memcpy) taken ring)
    (sound : ∀ entry ∈ taken, entry.1.Sound entry.2) :
    IsFifo memcpy size taken ring := by
  have kept : ∀ (ring : HAL_RingBuffer β) call later,
      ring.Valid dataSize size → ring.Sound call →
        ring.Steps memcpy call later → ring.Meets memcpy dataSize size call ∧
          (ring.call memcpy call).later = later := by
    rintro ring call later valid sound ⟨legal, steps⟩
    rw [valid.dataSize_eq] at legal
    exact ⟨valid.meets positive addressable copies legal sound, steps⟩
  have initially : ∀ ring : HAL_RingBuffer β,
      ring = Initialize dataSize data size → ring.Valid dataSize size := by
    rintro ring rfl
    exact initialize_valid addressable data
  have refined : ring.Valid dataSize size ∧ GreedyRun size
      (taken.map fun entry => (entry.1.elements, entry.1.event memcpy entry.2))
      ring.elements := by
    apply run.refines elements (event memcpy) (Valid dataSize size) Sound
    · rintro ring rfl
      refine ⟨initialize_valid addressable data, ?_⟩
      rw [elements, Length, Initialize, Nat.zero_div]
      rfl
    · intro ring call later valid sound steps
      obtain ⟨meets, rfl⟩ := kept ring call later valid sound steps
      exact ⟨meets.valid, meets.steps, meets.greedy⟩
    · exact sound
  obtain ⟨valid, greedy⟩ := refined
  have ordered := greedy.fifo.inOrder
  rw [List.flatMap_map, List.flatMap_map] at ordered
  refine ⟨greedy, ordered, ?_, length_elements.symm, ?_⟩
  · apply run.forall_of (Valid dataSize size) (Behaves memcpy) Sound
      initially _ _ sound
    · intro ring call later valid sound steps
      obtain ⟨meets, rfl⟩ := kept ring call later valid sound steps
      exact meets.valid
    · intro ring call later valid sound steps
      exact (kept ring call later valid sound steps).1.behaves
  · rw [Capacity, valid.capacity_eq, valid.dataSize_eq,
      Nat.mul_div_cancel _ positive]

/-- Calls on a buffer of eight bytes, of which the third moves what is left to
the front and the sixth goes round the end. -/
def callsRoundTheEnd : List (RingCall UInt8) :=
  [.PushArray [1, 2, 3, 4, 5, 6] 6, .Pop 4, .OptimizeSequence,
    .PushArray [7, 8, 9, 10] 4, .Pop 5, .PushArray [11, 12, 13, 14] 4, .Pop 2]

/-- The bytes are read before they are written. -/
def copyCells : Memcpy UInt8 := fun memory destination source count =>
  writeCells memory destination (cellsAt memory source count)

/-- The calls with the states they are made in. -/
def trailRoundTheEnd : List (HAL_RingBuffer UInt8 × RingCall UInt8) :=
  trail (fun ring call => (ring.call copyCells call).later)
    (Initialize 1 (fun _ => 0) 8) callsRoundTheEnd

/-- The calls are legal and sound. -/
theorem trailRoundTheEnd_sound :
    ∀ entry ∈ trailRoundTheEnd,
      entry.2.Legal entry.1._dataSize ∧ entry.1.Sound entry.2 := by
  simp only [trailRoundTheEnd, callsRoundTheEnd, trail, List.forall_mem_cons]
  refine ⟨⟨⟨rfl, by decide⟩, ?_⟩, ⟨trivial, ?_⟩, ⟨trivial, ?_⟩,
    ⟨⟨rfl, by decide⟩, ?_⟩, ⟨trivial, ?_⟩, ⟨⟨rfl, by decide⟩, ?_⟩,
    ⟨trivial, ?_⟩, List.forall_mem_nil _⟩
  · exact .inr (.inr (.inl rfl))
  · exact .inr (.inr (.inl (by decide +kernel)))
  · exact .inr (.inr ⟨rfl, by decide +kernel, by decide +kernel⟩)
  · exact .inr (.inr (.inl rfl))
  · exact .inr (.inr (.inl (by decide +kernel)))
  · exact .inr (.inr (.inl rfl))
  · exact .inr (.inr (.inl (by decide +kernel)))

/-- Bytes are taken and given, moved to the front and written round the end. -/
theorem ringBuffer_isFifo_of_sound_roundTheEnd :
    ∃ ring : HAL_RingBuffer UInt8,
      ring.elements = [[12], [13], [14]] ∧
        IsFifo copyCells 8 trailRoundTheEnd ring := by
  have start : Run (fun ring => ring = Initialize 1 (fun _ => 0) 8)
      (Steps copyCells) [] (Initialize 1 (fun _ => 0) 8) := .start rfl
  have steps : ∀ entry ∈ trailRoundTheEnd,
      entry.1.Steps copyCells entry.2
        (entry.1.call copyCells entry.2).later :=
    fun entry member => ⟨(trailRoundTheEnd_sound entry member).1, rfl⟩
  have run := start.follow _ steps
  exact ⟨_, by decide +kernel, ringBuffer_isFifo_of_sound
    (fun _ _ _ _ _ => rfl) (by decide) (by decide) run
    (fun entry member => (trailRoundTheEnd_sound entry member).2)⟩

/-- Optimizing a buffer that goes round its end loses the newest byte. -/
theorem ringBuffer_isFifo_lostByte :
    ¬∀ (memcpy : Memcpy UInt8) (dataSize size : Nat) (data : Nat → UInt8)
      (taken : List (HAL_RingBuffer UInt8 × RingCall UInt8))
      (ring : HAL_RingBuffer UInt8),
      CopiesApart memcpy → 0 < dataSize → size * dataSize < 2 ^ 32 →
        Run (fun ring => ring = Initialize dataSize data size) (Steps memcpy)
          taken ring →
        IsFifo memcpy size taken ring := by
  intro always
  let copy : Memcpy UInt8 := fun memory destination source count =>
    writeCells memory destination (cellsAt memory source count)
  let begins : HAL_RingBuffer UInt8 → Prop :=
    fun ring => ring = Initialize 1 (fun _ => 0) 4
  let first : HAL_RingBuffer UInt8 := Initialize 1 (fun _ => 0) 4
  let second := (first.PushArray [1, 2, 3, 4] 4).later
  let third := (second.Pop 2).later
  let fourth := (third.Push [5]).later
  have filled : Run begins (Steps copy)
      (_ ++ [(first, .PushArray [1, 2, 3, 4] 4)]) second :=
    .next (.start rfl) ⟨⟨rfl, by decide⟩, rfl⟩
  have taken : Run begins (Steps copy) (_ ++ [(second, .Pop 2)]) third :=
    .next filled ⟨trivial, rfl⟩
  have single : [(5 : UInt8)].length = third._dataSize := by decide +kernel
  have around : Run begins (Steps copy) (_ ++ [(third, .Push [5])]) fourth :=
    .next taken ⟨single, rfl⟩
  have optimized : Run begins (Steps copy) (_ ++ [(fourth, .OptimizeSequence)])
      (fourth.OptimizeSequence copy).later := .next around ⟨trivial, rfl⟩
  have fifo := always copy 1 4 (fun _ => 0) _ _ (fun _ _ _ _ _ => rfl)
    (by decide) (by decide) optimized
  exact absurd fifo.inOrder (by decide)

end HAL_RingBuffer

end Hal

end NanoClr
