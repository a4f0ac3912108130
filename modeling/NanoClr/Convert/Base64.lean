import NanoClr.Library.Base64
import Mathlib.Data.List.Nodup

/-!
# Conversion to and from base 64

The weak encoder and decoder, and the two conversions that use them. Memory
that the conversions allocate is taken to be there; what it holds at first is a
parameter, as is what stands around the argument array.
-/

namespace NanoClr

namespace Convert

/-- `base64_enc_map`: the letters of the alphabet in order. -/
def base64_enc_map : List UInt8 :=
  [0x41, 0x42, 0x43, 0x44, 0x45, 0x46, 0x47, 0x48, 0x49, 0x4A, 0x4B, 0x4C, 0x4D,
    0x4E, 0x4F, 0x50, 0x51, 0x52, 0x53, 0x54, 0x55, 0x56, 0x57, 0x58, 0x59, 0x5A,
    0x61, 0x62, 0x63, 0x64, 0x65, 0x66, 0x67, 0x68, 0x69, 0x6A, 0x6B, 0x6C, 0x6D,
    0x6E, 0x6F, 0x70, 0x71, 0x72, 0x73, 0x74, 0x75, 0x76, 0x77, 0x78, 0x79, 0x7A,
    0x30, 0x31, 0x32, 0x33, 0x34, 0x35, 0x36, 0x37, 0x38, 0x39, 0x2B, 0x2F]

/-- The letter for six bits. -/
def letter (index : Nat) : UInt8 := base64_enc_map.getD index 0

/-- The padding character. -/
def equalsSign : UInt8 := 0x3D

/-- `mod_table`: how many padding characters there are by what is left of the
last triple. -/
def mod_table : List Nat := [0, 2, 1]

/-! ## The encoder -/

/-- The four characters of a triple. -/
def quadruple (octet_a octet_b octet_c : Nat) : List UInt8 :=
  let triple := octet_a <<< 0x10 + octet_b <<< 0x08 + octet_c
  [letter (triple >>> (3 * 6) &&& 0x3F), letter (triple >>> (2 * 6) &&& 0x3F),
    letter (triple >>> (1 * 6) &&& 0x3F), letter (triple >>> (0 * 6) &&& 0x3F)]

/-- The loop over the source: octets behind its end are 0. -/
def encodeTriples : List UInt8 → List UInt8
  | [] => []
  | [a] => quadruple a.toNat 0 0
  | [a, b] => quadruple a.toNat b.toNat 0
  | a :: b :: c :: rest =>
      quadruple a.toNat b.toNat c.toNat ++ encodeTriples rest

/-- Padding is written over the last characters. -/
def writePadding (dst : Nat → UInt8) (olen : Nat) : Nat → Nat → UInt8
  | 0 => dst
  | i + 1 => Function.update (writePadding dst olen i) (olen - 1 - i) equalsSign

/-- `mbedtls_base64_encode` into a buffer that is long enough. -/
def mbedtls_base64_encode (dst : Nat → UInt8) (olen : Nat) (src : List UInt8) :
    Nat → UInt8 :=
  let dst := writeCells dst 0 (encodeTriples src)
  let dst := writePadding dst olen (mod_table.getD (src.length % 3) 0)
  Function.update dst olen 0

/-- The lines of a text with line breaks: the iterations that are left, the
number of those that are done, the characters that are left and the offset. -/
def copyLines (outArray : Nat → UInt8) :
    Nat → Nat → Nat → Nat → (Nat → UInt8) → Nat → UInt8
  | 0, _, _, _, lines => lines
  | left + 1, i, outputLength, offsetIndex, lines =>
      let count := (if outputLength > 76 then 76 else outputLength) % 2 ^ 8
      let lines := writeCells lines offsetIndex
        (cellsAt outArray (offsetIndex - i * 2) count)
      if outputLength ≥ 76 then
        let lines := Function.update lines (count + offsetIndex) 0x0D
        let lines := Function.update lines (count + offsetIndex + 1) 0x0A
        copyLines outArray left (i + 1) (outputLength - 76)
          ((offsetIndex + count + 2) % 2 ^ 16) lines
      else
        let offsetIndex := (offsetIndex + count) % 2 ^ 16
        let lines := Function.update lines offsetIndex 0
        copyLines outArray left (i + 1) outputLength offsetIndex lines

/-- `ToBase64String` of an array that is there: the characters that the result
is made from. The blocks are what the allocated memory holds. -/
def ToBase64String
    (outBlock lineBlock : Nat → UInt8)
    (inArray : List UInt8)
    (offset length : Nat)
    (insertLineBreaks : Bool) : Nat → UInt8 :=
  let inArrayPointer := (inArray.drop offset).take length
  let outputLength := 4 * ((length + 2) / 3)
  let outArray := mbedtls_base64_encode outBlock outputLength inArrayPointer
  if insertLineBreaks then
    let lineBreakCount := outputLength / 76 % 2 ^ 8
    copyLines outArray (lineBreakCount + 1) 0 outputLength 0 lineBlock
  else
    outArray

/-- The characters in front of the first zero. -/
def IsString (memory : Nat → UInt8) (text : List UInt8) : Prop :=
  Holds memory 0 text ∧ memory text.length = 0 ∧ ∀ character ∈ text, character ≠ 0

/-! ## The decoder -/

/-- The table of a decoder: the entries of other characters are left as the
memory has them. -/
def build_decoding_table (decoding_table : UInt8 → UInt8) : Nat → UInt8 → UInt8
  | 0 => decoding_table
  | i + 1 => Function.update (build_decoding_table decoding_table i) (letter i)
      (UInt8.ofNat i)

/-- A byte is written as long as there is room. -/
def writeByte (olen : Nat) (dst : (Nat → UInt8) × Nat) (byte : Nat) :
    (Nat → UInt8) × Nat :=
  if dst.2 < olen then
    (Function.update dst.1 dst.2 (UInt8.ofNat byte), dst.2 + 1)
  else dst

/-- The six bits of a character, none of a padding character. -/
def sextet (decoding_table : UInt8 → UInt8) (character : UInt8) : Nat :=
  if character = equalsSign then 0 else (decoding_table character).toNat

/-- The loop over the source, four characters at a time. -/
def decodeQuadruples (decoding_table : UInt8 → UInt8) (olen : Nat) :
    List UInt8 → (Nat → UInt8) × Nat → (Nat → UInt8) × Nat
  | a :: b :: c :: d :: rest, dst =>
      let triple := sextet decoding_table a <<< (3 * 6) +
        sextet decoding_table b <<< (2 * 6) +
        sextet decoding_table c <<< (1 * 6) +
        sextet decoding_table d <<< (0 * 6)
      let dst := writeByte olen dst (triple >>> (2 * 8) &&& 0xFF)
      let dst := writeByte olen dst (triple >>> (1 * 8) &&& 0xFF)
      let dst := writeByte olen dst (triple >>> (0 * 8) &&& 0xFF)
      decodeQuadruples decoding_table olen rest dst
  | _, dst => dst

/-- The memory of the result; the conversion does not look at the returned
code. -/
def mbedtls_base64_decode
    (tableBlock : UInt8 → UInt8)
    (dst : Nat → UInt8)
    (olen : Nat)
    (src : List UInt8) : Nat → UInt8 :=
  let decoding_table := build_decoding_table tableBlock 64
  if src.length % 4 ≠ 0 then dst
  else (decodeQuadruples decoding_table olen src (dst, 0)).1

/-- How often a loop with a signed counter of 16 bits runs. -/
def loopCount (length : Nat) : Nat :=
  let bound := length % 2 ^ 16
  if bound < 2 ^ 15 then bound else 0

/-- The loop that copies the low bytes of the characters to the start of their
own array. -/
def narrowCharacters (memory : Int → UInt8) : Nat → Int → UInt8
  | 0 => memory
  | i + 1 =>
      let memory := narrowCharacters memory i
      Function.update memory i (memory (2 * i))

/-- The bytes from an address on, which may be in front of the array. -/
def bytesAt (memory : Int → UInt8) (address : Int) : Nat → List UInt8
  | 0 => []
  | count + 1 => memory address :: bytesAt memory (address + 1) count

/-- The conversion back ends with a new array or with an exception, and leaves
the memory of its argument. -/
structure Decoded where
  result : Option (List UInt8)
  memory : Int → UInt8

/-- One less in a `size_t`. -/
def decrement (number : Nat) : Nat := (number + 2 ^ 32 - 1) % 2 ^ 32

/-- `FromBase64CharArray` of an array that is there, with its first byte at
address 0. -/
def FromBase64CharArray
    (tableBlock : UInt8 → UInt8)
    (outBlock : Nat → UInt8)
    (memory : Int → UInt8)
    (length : Nat) : Decoded :=
  let outputLength := length / 4 * 3
  let memory := narrowCharacters memory (loopCount length)
  let inArrayPointer : Int := loopCount length
  let charValue := memory (inArrayPointer - 1)
  let outputLength :=
    if charValue = equalsSign then decrement outputLength else outputLength
  let charValue := memory (inArrayPointer - 2)
  let outputLength :=
    if charValue = equalsSign then decrement outputLength else outputLength
  let inArrayPointer := inArrayPointer - length
  let outArray := mbedtls_base64_decode tableBlock outBlock outputLength
    (bytesAt memory inArrayPointer length)
  { result :=
      if outputLength < 2 ^ 31 then some (cellsAt outArray 0 outputLength)
      else none
    memory }

/-- The characters of an array, two bytes each. -/
def Stored (memory : Int → UInt8) (characters : List UInt16) : Prop :=
  ∀ (index : Nat) (character : UInt16), characters[index]? = some character →
    memory (2 * index) = character.toUInt8 ∧
      memory (2 * index + 1) = (character >>> 8).toUInt8

end Convert

end NanoClr
