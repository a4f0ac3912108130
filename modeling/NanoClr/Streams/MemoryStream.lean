import NanoClr.Arrays.ArrayElements

/-!
# Memory streams

`CLR_RT_HeapBlock_MemoryStream` writes and reads numbers of some bits in a list
of buffers of one size.
-/

namespace NanoClr

namespace Streams

open Arrays

/-- The bytes of 32 heap blocks, less those of the other two fields. -/
def c_PayloadSize : Nat := 32 * 12 - 4 - 4

/-- The bytes of a buffer in the stream itself. -/
abbrev Payload :=
  Vector UInt8 c_PayloadSize

/-- A buffer; its data are those of its payload, or lie elsewhere. -/
structure Buffer where
  m_data : Option (List UInt8)
  m_length : Int
  m_payload : Payload

namespace Buffer

/-- The bytes of a buffer. -/
def data (buffer : Buffer) : List UInt8 :=
  buffer.m_data.getD buffer.m_payload.toList

/-- The bytes that have been written to the buffer. -/
def bytes (buffer : Buffer) : List UInt8 :=
  buffer.data.take buffer.m_length.toNat

end Buffer

/-- The stream.  The current buffer is the one at a place of the list; behind
the last one is the end of the list, which is no buffer. -/
structure CLR_RT_HeapBlock_MemoryStream where
  m_buffers : List Buffer
  m_current : Nat
  m_pos : Int
  m_avail : UInt32

/-- What the event cache hands out for each further buffer, if anything; it is
not cleared. -/
abbrev EventCache :=
  Nat → Option Payload

namespace CLR_RT_HeapBlock_MemoryStream

variable (cache : EventCache)

/-- `NewBuffer`: an empty buffer comes behind the others, with what the event
cache leaves in it. -/
def NewBuffer (stream : CLR_RT_HeapBlock_MemoryStream) :
    Option CLR_RT_HeapBlock_MemoryStream :=
  (cache stream.m_buffers.length).map fun payload =>
    { m_buffers := stream.m_buffers ++ [⟨none, 0, payload⟩]
      m_current := stream.m_buffers.length
      m_pos := -1
      m_avail := 0 }

/-- A stream on some bytes that are given to it, or on none. -/
def Initialize (buf : Option (List UInt8)) :
    CallResult CLR_RT_HeapBlock_MemoryStream :=
  match NewBuffer cache ⟨[], 0, -1, 0⟩ with
  | none => .failed .CLR_E_OUT_OF_MEMORY
  | some stream =>
      match buf with
      | none => .S_OK stream
      | some buf =>
          .S_OK { stream with
            m_buffers := stream.m_buffers.map fun buffer =>
              { buffer with m_data := some buf, m_length := buf.length } }

/-- `Rewind`: the position is the start of the first buffer. -/
def Rewind (stream : CLR_RT_HeapBlock_MemoryStream) :
    CLR_RT_HeapBlock_MemoryStream :=
  { stream with m_current := 0, m_pos := -1, m_avail := 0 }

/-- A sum of `int`s, modulo 2^32. -/
def BitsAvailable (stream : CLR_RT_HeapBlock_MemoryStream) : Int32 :=
  Int32.ofInt (stream.m_avail.toNat - 8 * stream.m_pos - 8 +
    ((stream.m_buffers.drop stream.m_current).map (8 * ·.m_length)).sum)

/-- `BitsWritten`: the bits of the buffers in front, and those of the current
one. -/
def BitsWritten (stream : CLR_RT_HeapBlock_MemoryStream) : Int32 :=
  Int32.ofInt (stream.m_pos * 8 - stream.m_avail.toNat + 8 +
    ((stream.m_buffers.take stream.m_current).map (8 * ·.m_length)).sum)

/-! ## Writing -/

/-- A byte of the payload of the current buffer is replaced. -/
def replaceByte (stream : CLR_RT_HeapBlock_MemoryStream)
    (replace : UInt8 → UInt8) (lengthen : Int) :
    CLR_RT_HeapBlock_MemoryStream :=
  let place := stream.m_pos.toNat
  { stream with
    m_buffers := stream.m_buffers.modify stream.m_current fun buffer =>
      { buffer with
        m_length := buffer.m_length + lengthen
        m_payload := buffer.m_payload.setIfInBounds place
          (replace (buffer.m_payload[place]?.getD 0)) } }

theorem newBuffer_pos
    {cache : EventCache}
    {stream later : CLR_RT_HeapBlock_MemoryStream}
    (isNew : NewBuffer cache stream = some later) :
    later.m_pos = -1 := by
  obtain ⟨payload, -, rfl⟩ := Option.map_eq_some_iff.mp isNew
  rfl

/-- The loop of `WriteBits` that looks for a byte with free bits. -/
def findFree (stream : CLR_RT_HeapBlock_MemoryStream) :
    CLR_RT_HeapBlock_MemoryStream × CallResult Unit :=
  if stream.m_avail = 0 then
    let next := { stream with m_pos := stream.m_pos + 1 }
    if next.m_pos < (c_PayloadSize : Int) then
      ({ next.replaceByte (fun _ => 0) 1 with m_avail := 8 }, .S_OK ())
    else
      match _isNew : NewBuffer cache next with
      | none => (next, .failed .CLR_E_OUT_OF_MEMORY)
      | some later => findFree later
  else
    (stream, .S_OK ())
termination_by if stream.m_pos + 1 < (c_PayloadSize : Int) then 0 else 1
decreasing_by
  rw [newBuffer_pos _isNew, if_pos (by decide), if_neg ‹_›]
  exact Nat.one_pos

/-- Rounds of the loop of `WriteBits`; each writes at least one bit. -/
def writeRounds (val : UInt32) : Nat → UInt32 → UInt32 →
    CLR_RT_HeapBlock_MemoryStream →
      CLR_RT_HeapBlock_MemoryStream × CallResult Unit
  | 0, _, _, stream => (stream, .S_OK ())
  | rounds + 1, bits, pos, stream =>
      if 0 < bits then
        match findFree cache stream with
        | (stream, .S_OK _) =>
            let insert := if bits < stream.m_avail then bits else stream.m_avail
            let mask := ((1 : UInt32) <<< insert) - 1
            let pos := pos - insert
            let inserted :=
              (((val >>> pos) &&& mask) <<< (stream.m_avail - insert)).toUInt8
            let stream := stream.replaceByte (· ||| inserted) 0
            writeRounds val rounds (bits - insert) pos
              { stream with m_avail := stream.m_avail - insert }
        | failure => failure
      else
        (stream, .S_OK ())

/-- `WriteBits`: the bits are written from the highest on, byte by byte. -/
def WriteBits (stream : CLR_RT_HeapBlock_MemoryStream) (val bits : UInt32) :
    CLR_RT_HeapBlock_MemoryStream × CallResult Unit :=
  writeRounds cache val bits.toNat bits bits stream

/-- `WriteBits` of a number of 64 bits. -/
def WriteBits64 (stream : CLR_RT_HeapBlock_MemoryStream) (res : UInt64)
    (bits : UInt32) : CLR_RT_HeapBlock_MemoryStream × CallResult Unit :=
  if 32 < bits then
    match stream.WriteBits cache (res >>> 32).toUInt32 (bits - 32) with
    | (stream, .S_OK _) => stream.WriteBits cache res.toUInt32 32
    | failure => failure
  else
    stream.WriteBits cache res.toUInt32 bits

/-- `WriteArray`: eight bits for every byte. -/
def WriteArray (stream : CLR_RT_HeapBlock_MemoryStream) :
    List UInt8 → CLR_RT_HeapBlock_MemoryStream × CallResult Unit
  | [] => (stream, .S_OK ())
  | byte :: buf =>
      match stream.WriteBits cache byte.toUInt32 8 with
      | (stream, .S_OK _) => WriteArray stream buf
      | failure => failure

/-! ## Reading -/

/-- The loop of `ReadBits` over the buffers from the current one on, for one
with a byte at the position. -/
def skipBuffers (stream : CLR_RT_HeapBlock_MemoryStream) :
    List Buffer → CLR_RT_HeapBlock_MemoryStream × CallResult Unit
  | [] => (stream, .outside)
  | buffer :: later =>
      if buffer.m_length ≤ stream.m_pos then
        let stream := { stream with m_current := stream.m_current + 1 }
        match later with
        | [] => (stream, .failed .CLR_E_OUT_OF_RANGE)
        | _ :: _ => skipBuffers { stream with m_pos := 0 } later
      else
        (stream, .S_OK ())

/-- The loop of `ReadBits` that looks for a byte with bits to read. -/
def findData (stream : CLR_RT_HeapBlock_MemoryStream) :
    CLR_RT_HeapBlock_MemoryStream × CallResult Unit :=
  if stream.m_avail = 0 then
    skipBuffers { stream with m_pos := stream.m_pos + 1, m_avail := 8 }
      (stream.m_buffers.drop stream.m_current)
  else
    (stream, .S_OK ())

/-- `m_current->m_data[ m_pos ]` -/
def currentByte (stream : CLR_RT_HeapBlock_MemoryStream) : Option UInt8 :=
  if 0 ≤ stream.m_pos then
    stream.m_buffers[stream.m_current]?.bind (·.data[stream.m_pos.toNat]?)
  else
    none

/-- Rounds of the loop of `ReadBits`; each reads at least one bit. -/
def readRounds : Nat → UInt32 → UInt32 → UInt32 →
    CLR_RT_HeapBlock_MemoryStream →
      CLR_RT_HeapBlock_MemoryStream × CallResult UInt32
  | 0, val, _, _, stream => (stream, .S_OK val)
  | rounds + 1, val, bits, pos, stream =>
      if 0 < bits then
        match findData stream with
        | (stream, .S_OK _) =>
            let insert := if bits < stream.m_avail then bits else stream.m_avail
            let mask := ((1 : UInt32) <<< insert) - 1
            let pos := pos - insert
            match stream.currentByte with
            | none => (stream, .outside)
            | some byte =>
                let read :=
                  (byte.toUInt32 >>> (stream.m_avail - insert)) &&& mask
                readRounds rounds (val ||| read <<< pos) (bits - insert) pos
                  { stream with m_avail := stream.m_avail - insert }
        | (stream, .failed hr) => (stream, .failed hr)
        | (stream, .outside) => (stream, .outside)
      else
        (stream, .S_OK val)

/-- `ReadBits`: the bits are read from the highest on, byte by byte. -/
def ReadBits (stream : CLR_RT_HeapBlock_MemoryStream) (bits : UInt32) :
    CLR_RT_HeapBlock_MemoryStream × CallResult UInt32 :=
  readRounds bits.toNat 0 bits bits stream

/-- A number by its two words, the low one first. -/
def ofWords (low high : UInt32) : UInt64 :=
  high.toUInt64 <<< 32 ||| low.toUInt64

/-- `ReadBits` of a number of 64 bits. -/
def ReadBits64 (stream : CLR_RT_HeapBlock_MemoryStream) (bits : UInt32) :
    CLR_RT_HeapBlock_MemoryStream × CallResult UInt64 :=
  if 32 < bits then
    match stream.ReadBits (bits - 32) with
    | (stream, .S_OK high) =>
        let read := stream.ReadBits 32
        (read.1, read.2.map (ofWords · high))
    | (stream, .failed hr) => (stream, .failed hr)
    | (stream, .outside) => (stream, .outside)
  else
    let read := stream.ReadBits bits
    (read.1, read.2.map (ofWords · 0))

/-- `ReadArray`: eight bits for every byte. -/
def ReadArray (stream : CLR_RT_HeapBlock_MemoryStream) :
    Nat → CLR_RT_HeapBlock_MemoryStream × CallResult (List UInt8)
  | 0 => (stream, .S_OK [])
  | bytes + 1 =>
      match stream.ReadBits 8 with
      | (stream, .S_OK data) =>
          let read := ReadArray stream bytes
          (read.1, read.2.map (data.toUInt8 :: ·))
      | (stream, .failed hr) => (stream, .failed hr)
      | (stream, .outside) => (stream, .outside)

end CLR_RT_HeapBlock_MemoryStream

end Streams

end NanoClr
