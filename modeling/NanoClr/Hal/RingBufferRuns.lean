import NanoClr.Hal.RingBuffer
import NanoClr.Library.BoundedFifo
import NanoClr.Library.CircularWindow

/-!
# Runs of the ring buffer

The contents of the ring buffer are elements of some bytes each, read from the
storage round its end. Every call that does not move a pointer to elements by
bytes, ask for more than there is or move the contents over themselves does to
them what its event does to a bounded queue.
-/

namespace NanoClr

namespace Hal

/-- The first elements of some bytes. -/
def elementsOf {β : Type} (dataSize : Nat) : Nat → List β → List (List β)
  | 0, _ => []
  | count + 1, bytes =>
      bytes.take dataSize :: elementsOf dataSize count (bytes.drop dataSize)

section Elements

variable
  {β : Type}
  {dataSize count more : Nat}
  {bytes others : List β}

@[simp] theorem length_elementsOf :
    (elementsOf dataSize count bytes).length = count := by
  induction count generalizing bytes with
  | zero => rfl
  | succ count inductionHypothesis =>
      rw [elementsOf, List.length_cons, inductionHypothesis]

theorem elementsOf_append
    (whole : bytes.length = count * dataSize) :
    elementsOf dataSize (count + more) (bytes ++ others) =
      elementsOf dataSize count bytes ++ elementsOf dataSize more others := by
  induction count generalizing bytes with
  | zero =>
      rw [Nat.zero_mul] at whole
      rw [List.eq_nil_of_length_eq_zero whole, Nat.zero_add]
      rfl
  | succ count inductionHypothesis =>
      rw [Nat.succ_mul] at whole
      have inside : dataSize ≤ bytes.length := by omega
      have rest : (bytes.drop dataSize).length = count * dataSize := by
        rw [List.length_drop]
        omega
      rw [Nat.add_right_comm, elementsOf, elementsOf,
        List.take_append_of_le_length inside,
        List.drop_append_of_le_length inside, inductionHypothesis rest]
      rfl

/-- Bytes behind the elements do not matter. -/
theorem elementsOf_append_left
    (whole : bytes.length = count * dataSize) :
    elementsOf dataSize count (bytes ++ others) =
      elementsOf dataSize count bytes := by
  have parts : elementsOf dataSize (count + 0) (bytes ++ others) = _ :=
    elementsOf_append whole
  rwa [Nat.add_zero, elementsOf, List.append_nil] at parts

theorem elementsOf_take
    (fits : count * dataSize ≤ bytes.length) :
    elementsOf dataSize count (bytes.take (count * dataSize)) =
      elementsOf dataSize count bytes := by
  have whole : (bytes.take (count * dataSize)).length = count * dataSize := by
    rw [List.length_take, Nat.min_eq_left fits]
  have front : elementsOf dataSize count
      (bytes.take (count * dataSize) ++ bytes.drop (count * dataSize)) = _ :=
    elementsOf_append_left whole
  rw [List.take_append_drop] at front
  exact front.symm

theorem take_elementsOf
    (fewer : count ≤ more) :
    (elementsOf dataSize more bytes).take count =
      elementsOf dataSize count bytes := by
  induction count generalizing more bytes with
  | zero => rfl
  | succ count inductionHypothesis =>
      cases more with
      | zero => omega
      | succ more =>
          rw [elementsOf, elementsOf, List.take_succ_cons,
            inductionHypothesis (Nat.le_of_succ_le_succ fewer)]

end Elements

theorem wrap_of_lt
    {number : Nat}
    (fits : number < 2 ^ 32) :
    wrap number = number :=
  Nat.mod_eq_of_lt fits

theorem wrapSub_of_le
    {left right : Nat}
    (atMost : right ≤ left)
    (fits : left < 2 ^ 32) :
    wrapSub left right = left - right := by
  unfold wrapSub wrap
  omega

/-! ## Indices -/

section Indices

variable {capacity index count : Nat}

/-- An index that moves inside the storage. -/
theorem moved_inside
    (fits : capacity < 2 ^ 32)
    (isPlace : index < capacity)
    (inside : index + count ≤ capacity) :
    (if wrap (index + count) = capacity then 0 else wrap (index + count)) =
      windowEnd capacity index count := by
  rw [wrap_of_lt (by omega), windowEnd_eq isPlace]
  split
  next atEnd => rw [atEnd, Nat.mod_self]
  next => rw [Nat.mod_eq_of_lt (by omega)]

/-- An index that moves round the end of the storage. -/
theorem moved_round
    (fits : capacity < 2 ^ 32)
    (isPlace : index < capacity)
    (round : capacity < index + count)
    (atMost : count ≤ capacity) :
    wrapSub count (capacity - index) = windowEnd capacity index count := by
  rw [wrapSub_of_le (by omega) (by omega), windowEnd_eq isPlace,
    Nat.mod_eq_sub_mod (by omega), Nat.mod_eq_of_lt (by omega)]
  omega

end Indices

namespace HAL_RingBuffer

variable {β : Type}

/-- The bytes in use, oldest first. -/
def bytes (ring : HAL_RingBuffer β) : List β :=
  (window ring._capacity ring._read_index ring._size).map ring._buffer

/-- The elements in use. -/
def elements (ring : HAL_RingBuffer β) : List (List β) :=
  elementsOf ring._dataSize ring.Length ring.bytes

/-- The indices delimit whole elements inside storage for `size` of them. -/
structure Valid (dataSize size : Nat) (ring : HAL_RingBuffer β) : Prop where
  dataSize_eq : ring._dataSize = dataSize
  capacity_eq : ring._capacity = size * dataSize
  size_eq : ring._size = ring.Length * dataSize
  size_le : ring._size ≤ ring._capacity
  read_index : ring._read_index < ring._capacity ∨ ring._capacity = 0
  write_eq : ring._write_index =
    windowEnd ring._capacity ring._read_index ring._size

variable
  {dataSize size : Nat}
  {ring later : HAL_RingBuffer β}

@[simp] theorem length_bytes : ring.bytes.length = ring._size := by
  rw [bytes, List.length_map, length_window]

@[simp] theorem length_elements : ring.elements.length = ring.Length :=
  length_elementsOf

theorem initialize_valid
    (addressable : size * dataSize < 2 ^ 32)
    (data : Nat → β) :
    (Initialize dataSize data size).Valid dataSize size where
  dataSize_eq := rfl
  capacity_eq := wrap_of_lt addressable
  size_eq := by
    show 0 = 0 / dataSize * dataSize
    rw [Nat.zero_div, Nat.zero_mul]
  size_le := Nat.zero_le _
  read_index := (Nat.eq_zero_or_pos _).symm
  write_eq := rfl

theorem overwrite_start
    (data values : List β) :
    overwrite data 0 values = values ++ data.drop values.length := by
  rw [overwrite, List.take_zero, List.nil_append, Nat.zero_add]

/-- Bytes that are read into the caller's array one part after the other. -/
theorem overwrite_twice
    (data first second : List β) :
    overwrite (overwrite data 0 first) first.length second =
      first ++ second ++ data.drop (first.length + second.length) := by
  rw [overwrite_start, overwrite, List.take_left, List.drop_append,
    List.drop_of_length_le (Nat.le_add_right _ _), Nat.add_sub_cancel_left,
    List.drop_drop, List.nil_append]

/-- The buffer after bytes are written behind those in use. -/
def extended
    (ring : HAL_RingBuffer β)
    (memory : Nat → β)
    (count : Nat) : HAL_RingBuffer β :=
  { ring with
    _buffer := memory
    _write_index := windowEnd ring._capacity ring._write_index count
    _size := ring._size + count }

theorem bytes_extended
    {memory : Nat → β}
    {values : List β}
    (isPlace : ring._read_index < ring._capacity)
    (write_eq : ring._write_index =
      windowEnd ring._capacity ring._read_index ring._size)
    (fits : ring._size + values.length ≤ ring._capacity)
    (written : (window ring._capacity ring._write_index values.length).map
      memory = values)
    (kept : ∀ place ∉ window ring._capacity ring._write_index values.length,
      memory place = ring._buffer place) :
    (ring.extended memory values.length).bytes = ring.bytes ++ values := by
  have distinct : (window ring._capacity ring._read_index
      (ring._size + values.length)).Nodup := window_nodup isPlace fits
  rw [window_add, ← write_eq, List.nodup_append'] at distinct
  rw [bytes, extended, window_add, ← write_eq, List.map_append, written, bytes]
  congr 1
  apply List.map_congr_left
  intro place member
  exact kept place (List.disjoint_left.mp distinct.2.2 member)

theorem length_of_size
    {count : Nat}
    (positive : 0 < dataSize)
    (dataSize_eq : ring._dataSize = dataSize)
    (size_eq : ring._size = count * dataSize) :
    ring.Length = count := by
  rw [Length, size_eq, dataSize_eq, Nat.mul_div_cancel _ positive]

namespace Valid

variable
  (positive : 0 < dataSize)
  (addressable : size * dataSize < 2 ^ 32)
  (valid : ring.Valid dataSize size)

include valid

theorem capacity_lt
    (addressable : size * dataSize < 2 ^ 32) :
    ring._capacity < 2 ^ 32 := by
  rw [valid.capacity_eq]
  exact addressable

include positive

theorem length_le : ring.Length ≤ size := by
  have fits := valid.size_le
  rw [valid.size_eq, valid.capacity_eq] at fits
  exact Nat.le_of_mul_le_mul_right fits positive

theorem full_iff : ring._size = ring._capacity ↔ ring.Length = size := by
  rw [valid.size_eq, valid.capacity_eq]
  exact Nat.mul_left_inj (Nat.ne_of_gt positive)

theorem empty_iff : ring._size = 0 ↔ ring.Length = 0 := by
  rw [valid.size_eq]
  constructor
  · intro none_
    exact (Nat.mul_eq_zero.mp none_).resolve_right (Nat.ne_of_gt positive)
  · intro none_
    rw [none_, Nat.zero_mul]

/-- Elements that are written behind those in use. -/
theorem pushed
    {count : Nat}
    {memory : Nat → β}
    {values : List β}
    (fits : ring.Length + count ≤ size)
    (isPlace : ring._read_index < ring._capacity)
    (whole : values.length = count * dataSize)
    (written : (window ring._capacity ring._write_index values.length).map
      memory = values)
    (kept : ∀ place ∉ window ring._capacity ring._write_index values.length,
      memory place = ring._buffer place) :
    (ring.extended memory values.length).Valid dataSize size ∧
      (ring.extended memory values.length).elements =
        ring.elements ++ elementsOf dataSize count values := by
  have newSize : ring._size + values.length =
      (ring.Length + count) * dataSize := by
    rw [whole, valid.size_eq, Nat.add_mul]
  have bytesFit : ring._size + values.length ≤ ring._capacity := by
    rw [newSize, valid.capacity_eq]
    exact Nat.mul_le_mul_right dataSize fits
  have laterLength : (ring.extended memory values.length).Length =
      ring.Length + count :=
    length_of_size positive valid.dataSize_eq newSize
  constructor
  · exact {
      dataSize_eq := valid.dataSize_eq
      capacity_eq := valid.capacity_eq
      size_eq := by
        rw [laterLength]
        exact newSize
      size_le := bytesFit
      read_index := valid.read_index
      write_eq := by
        show windowEnd _ _ _ = windowEnd _ _ (ring._size + values.length)
        rw [windowEnd_add, valid.write_eq]
        rfl }
  · have all := bytes_extended isPlace valid.write_eq bytesFit written kept
    rw [elements, laterLength, all, elements, valid.dataSize_eq]
    show elementsOf ring._dataSize _ _ = _
    rw [valid.dataSize_eq]
    apply elementsOf_append
    rw [length_bytes]
    exact valid.size_eq

include addressable

omit positive in
/-- The indices after elements are taken: those behind the elements, or both of
them the first one. -/
theorem popped_indices
    {count : Nat}
    (atMost : count ≤ ring.Length)
    (isPlace : ring._read_index < ring._capacity) :
    ∃ read_index write_index, ring.popped (count * dataSize) = { ring with
        _size := (ring.Length - count) * dataSize
        _read_index := read_index
        _write_index := write_index } ∧
      read_index < ring._capacity ∧
      write_index = windowEnd ring._capacity read_index
        ((ring.Length - count) * dataSize) ∧
      ((ring.Length - count) * dataSize = 0 ∨ read_index =
        windowEnd ring._capacity ring._read_index (count * dataSize)) := by
  have capacity := valid.capacity_lt addressable
  have sizeFits := valid.size_le
  have bytesFit : count * dataSize ≤ ring._size := by
    rw [valid.size_eq]
    exact Nat.mul_le_mul_right dataSize atMost
  have total : ring._size =
      count * dataSize + (ring.Length - count) * dataSize := by
    rw [← Nat.add_mul, Nat.add_sub_cancel' atMost]
    exact valid.size_eq
  have remaining : wrapSub ring._size (count * dataSize) =
      (ring.Length - count) * dataSize := by
    rw [wrapSub_of_le bytesFit (by omega)]
    omega
  have moved : (if count * dataSize ≤
        wrapSub ring._capacity ring._read_index then
      if wrap (ring._read_index + count * dataSize) = ring._capacity then 0
      else wrap (ring._read_index + count * dataSize)
    else wrapSub (count * dataSize)
      (wrapSub ring._capacity ring._read_index)) =
        windowEnd ring._capacity ring._read_index (count * dataSize) := by
    rw [wrapSub_of_le (Nat.le_of_lt isPlace) capacity]
    split
    next inside => exact moved_inside capacity isPlace (by omega)
    next round => exact moved_round capacity isPlace (by omega) (by omega)
  simp only [HAL_RingBuffer.popped, remaining, moved]
  split
  next isEmpty =>
    refine ⟨0, 0, rfl, Nat.zero_lt_of_lt isPlace, ?_, .inl isEmpty.1⟩
    rw [isEmpty.1]
    rfl
  next =>
    refine ⟨_, _, rfl, windowEnd_lt isPlace, ?_, .inr rfl⟩
    rw [← windowEnd_add, ← total]
    exact valid.write_eq

/-- The oldest elements that are taken. -/
theorem popped
    {count : Nat}
    (atMost : count ≤ ring.Length)
    (isPlace : ring._read_index < ring._capacity) :
    (ring.popped (count * dataSize)).Valid dataSize size ∧
      ring.elements = elementsOf dataSize count
        ((window ring._capacity ring._read_index (count * dataSize)).map
          ring._buffer) ++ (ring.popped (count * dataSize)).elements := by
  obtain ⟨read_index, write_index, later_eq, laterPlace, newWrite, newRead⟩ :=
    valid.popped_indices addressable atMost isPlace
  generalize ring.popped (count * dataSize) = later at later_eq ⊢
  have laterLength : later.Length = ring.Length - count := by
    apply length_of_size positive (later_eq ▸ valid.dataSize_eq)
    rw [later_eq]
  have fewer : (ring.Length - count) * dataSize ≤ ring._capacity := by
    apply Nat.le_trans _ valid.size_le
    rw [valid.size_eq]
    exact Nat.mul_le_mul_right dataSize (Nat.sub_le _ _)
  constructor
  · exact {
      dataSize_eq := by
        rw [later_eq]
        exact valid.dataSize_eq
      capacity_eq := by
        rw [later_eq]
        exact valid.capacity_eq
      size_eq := by rw [laterLength, later_eq]
      size_le := by
        rw [later_eq]
        exact fewer
      read_index := by
        rw [later_eq]
        exact .inl laterPlace
      write_eq := by
        rw [later_eq]
        exact newWrite }
  · have behind : later.bytes = (window ring._capacity (windowEnd ring._capacity
        ring._read_index (count * dataSize))
          ((ring.Length - count) * dataSize)).map ring._buffer := by
      rw [bytes, later_eq]
      rcases newRead with none_ | newRead
      · rw [none_]
        rfl
      · rw [newRead]
    have taken : ring.bytes =
        (window ring._capacity ring._read_index (count * dataSize)).map
          ring._buffer ++ later.bytes := by
      rw [behind, ← List.map_append, ← window_add, ← Nat.add_mul,
        Nat.add_sub_cancel' atMost, ← valid.size_eq, bytes]
    have total : ring.Length = count + later.Length := by
      rw [laterLength, Nat.add_sub_cancel' atMost]
    have laterDataSize : later._dataSize = dataSize := by
      rw [later_eq]
      exact valid.dataSize_eq
    rw [elements, valid.dataSize_eq, taken, total, elements, laterDataSize]
    apply elementsOf_append
    rw [List.length_map, length_window]

end Valid

end HAL_RingBuffer

end Hal

end NanoClr
