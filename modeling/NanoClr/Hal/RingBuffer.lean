import NanoClr.Library.Cells

/-!
# The ring buffer of the hardware layer

`HAL_RingBuffer` with its storage as bytes. Indices and sizes count bytes and
wrap around as a `size_t` of 32 bits does; a pointer to elements that is moved
by an index moves by that many elements. The temporary storage of
`OptimizeSequence` is taken to be allocated.
-/

namespace NanoClr

namespace Hal

/-- A number in a `size_t`. -/
def wrap (number : Nat) : Nat := number % 2 ^ 32

/-- A difference in a `size_t`. -/
def wrapSub (left right : Nat) : Nat :=
  wrap (left + 2 ^ 32 - right)

/-- Bytes that a call reads or writes: of the storage, or of the caller's array
of elements. -/
inductive Access
  | buffer (start count : Nat)
  | data (start count : Nat)

/-- The buffer, over the bytes `β`. -/
structure HAL_RingBuffer (β : Type) where
  _dataSize : Nat
  _size : Nat
  _capacity : Nat
  _write_index : Nat
  _read_index : Nat
  _buffer : Nat → β

/-- What a call returns, which bytes it touches, what it leaves in the caller's
array and the later buffer. -/
structure Outcome (β : Type) where
  returned : Nat
  accesses : List Access
  data : List β
  later : HAL_RingBuffer β

namespace HAL_RingBuffer

variable {β : Type}

/-- The buffer for elements of `dataSize` bytes in storage for `size` of them. -/
def Initialize (dataSize : Nat) (data : Nat → β) (size : Nat) :
    HAL_RingBuffer β where
  _dataSize := dataSize
  _capacity := wrap (size * dataSize)
  _write_index := 0
  _read_index := 0
  _size := 0
  _buffer := data

variable (ring : HAL_RingBuffer β)

/-- `Capacity`: how many elements fit. -/
def Capacity : Nat := ring._capacity / ring._dataSize

/-- `Length`: how many elements there are. -/
def Length : Nat := ring._size / ring._dataSize

/-- The byte of the storage that `_buffer + index` points to. -/
def pointer (index : Nat) : Nat := index * ring._dataSize

/-- The byte of the storage that the contents start from. -/
def Reader : Nat := ring.pointer ring._read_index

/-- A call that does nothing. -/
def refuse (data : List β) : Outcome β := ⟨0, [], data, ring⟩

/-- `Push(const T data)`. -/
def Push (data : List β) : Outcome β :=
  if ring._size = ring._capacity then
    ring.refuse data
  else
    let destination := ring.pointer ring._write_index
    let _write_index := wrap (ring._write_index + ring._dataSize)
    ⟨1, [.buffer destination ring._dataSize], data, { ring with
      _buffer := writeCells ring._buffer destination data
      _write_index := if _write_index = ring._capacity then 0 else _write_index
      _size := wrap (ring._size + ring._dataSize) }⟩

/-- `Push(const T* data, size_t length)`: the bytes of the array. -/
def PushArray (data : List β) (length : Nat) : Outcome β :=
  if length = 0 then
    ring.refuse data
  else if ring._size = ring._capacity then
    ring.refuse data
  else
    let available := wrapSub ring._capacity ring._size
    let lengthToWrite :=
      if wrap (length * ring._dataSize) < available then
        wrap (length * ring._dataSize)
      else available
    let destination := ring.pointer ring._write_index
    let chunk1Size := wrapSub ring._capacity ring._write_index
    let _size := wrap (ring._size + lengthToWrite)
    if lengthToWrite ≤ chunk1Size then
      let _write_index := wrap (ring._write_index + lengthToWrite)
      ⟨lengthToWrite / ring._dataSize,
        [.data 0 lengthToWrite, .buffer destination lengthToWrite], data,
        { ring with
          _buffer :=
            writeCells ring._buffer destination (data.take lengthToWrite)
          _write_index := if _write_index = ring._capacity then 0
            else _write_index
          _size }⟩
    else
      let chunk2Size := wrapSub lengthToWrite chunk1Size
      let second := ring.pointer chunk1Size
      ⟨lengthToWrite / ring._dataSize,
        [.data 0 chunk1Size, .buffer destination chunk1Size,
          .data second chunk2Size, .buffer 0 chunk2Size], data,
        { ring with
          _buffer := writeCells
            (writeCells ring._buffer destination (data.take chunk1Size)) 0
            ((data.drop second).take chunk2Size)
          _write_index := chunk2Size
          _size }⟩

/-- The buffer after `lengthToRead` bytes were taken from it. -/
def popped (lengthToRead : Nat) : HAL_RingBuffer β :=
  let chunk1Size := wrapSub ring._capacity ring._read_index
  let _read_index :=
    if lengthToRead ≤ chunk1Size then
      let _read_index := wrap (ring._read_index + lengthToRead)
      if _read_index = ring._capacity then 0 else _read_index
    else wrapSub lengthToRead chunk1Size
  let _size := wrapSub ring._size lengthToRead
  if _size = 0 ∧ ring._write_index = _read_index then
    { ring with
      _read_index := 0
      _write_index := 0
      _size }
  else
    { ring with
      _read_index
      _size }

/-- A list of bytes after others are written into it. -/
def overwrite (data : List β) (start : Nat) (values : List β) : List β :=
  data.take start ++ values ++ data.drop (start + values.length)

/-- `Pop(T* data, size_t length)`. -/
def PopArray (data : List β) (length : Nat) : Outcome β :=
  if length = 0 then
    ring.refuse data
  else if ring._size = 0 then
    ring.refuse data
  else
    let lengthToRead := wrap (length * ring._dataSize)
    let source := ring.pointer ring._read_index
    let chunk1Size := wrapSub ring._capacity ring._read_index
    if lengthToRead ≤ chunk1Size then
      ⟨lengthToRead / ring._dataSize,
        [.buffer source lengthToRead, .data 0 lengthToRead],
        overwrite data 0 (cellsAt ring._buffer source lengthToRead),
        ring.popped lengthToRead⟩
    else
      let chunk2Size := wrapSub lengthToRead chunk1Size
      let second := ring.pointer chunk1Size
      ⟨lengthToRead / ring._dataSize,
        [.buffer source chunk1Size, .data 0 chunk1Size,
          .buffer 0 chunk2Size, .data second chunk2Size],
        overwrite
          (overwrite data 0 (cellsAt ring._buffer source chunk1Size)) second
          (cellsAt ring._buffer 0 chunk2Size),
        ring.popped lengthToRead⟩

/-- `Pop(size_t length)`. -/
def Pop (length : Nat) : Outcome β :=
  if length = 0 then
    ring.refuse []
  else if ring._size = 0 then
    ring.refuse []
  else
    let lengthToRead := wrap (length * ring._dataSize)
    ⟨lengthToRead / ring._dataSize, [], [], ring.popped lengthToRead⟩

/-- The library's copy of bytes within a memory: the memory, the byte to copy
to, the byte to copy from and the number of bytes. -/
abbrev Memcpy (β : Type) : Type :=
  (Nat → β) → Nat → Nat → Nat → Nat → β

/-- `OptimizeSequence`: the contents are moved to the front of the storage. -/
def OptimizeSequence (memcpy : Memcpy β) : Outcome β :=
  if ring._size = 0 then
    ring.refuse []
  else if ring._read_index = 0 then
    ring.refuse []
  else
    let source := ring.pointer ring._read_index
    if ring._read_index < ring._write_index then
      ⟨0, [.buffer source ring._size, .buffer 0 ring._size], [], { ring with
        _buffer := memcpy ring._buffer 0 source ring._size
        _read_index := 0
        _write_index := ring._size }⟩
    else
      let tailSize := wrapSub ring._write_index (1 * ring._dataSize)
      let tempBuffer := cellsAt ring._buffer 0 tailSize
      let headSize := wrapSub ring._capacity ring._read_index
      let afterHead := ring.pointer headSize
      ⟨0, [.buffer 0 tailSize, .buffer source headSize, .buffer 0 headSize,
          .buffer afterHead tailSize], [], { ring with
        _buffer := writeCells (memcpy ring._buffer 0 source headSize)
          afterHead tempBuffer
        _read_index := 0
        _write_index := ring._size }⟩

/-- Bytes that do not overlap are copied, and no others change. -/
def CopiesApart (memcpy : Memcpy β) : Prop :=
  ∀ memory destination source count,
    destination + count ≤ source ∨ source + count ≤ destination →
      memcpy memory destination source count =
        writeCells memory destination (cellsAt memory source count)

end HAL_RingBuffer

end Hal

end NanoClr
