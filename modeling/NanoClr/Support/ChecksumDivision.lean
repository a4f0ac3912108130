import NanoClr.Library.BitDivision
import NanoClr.Library.Cells
import NanoClr.Support.ComputeCRC
import Mathlib.Data.Nat.Bitwise

/-!
# The checksum as a division

The table of the checksum holds the remainders of the single bytes, so that
going over a block byte by byte divides its bits by the polynomial.
-/

namespace NanoClr

/-- The divisor without its leading term. -/
def crcPolynomial : BitVec 32 := 0x04C11DB7#32

/-- The bits of a sequence of bytes, the highest of each byte first. -/
def bitsOfBytes (bytes : List UInt8) : List Bool :=
  bytes.flatMap fun byte => topBits 8 byte.toBitVec

section ChecksumDivision

variable {rgBlock : Bytes} {address : Nat}

theorem bitsOfBytes_cons (byte : UInt8) (bytes : List UInt8) :
    bitsOfBytes (byte :: bytes) =
      topBits 8 byte.toBitVec ++ bitsOfBytes bytes :=
  List.flatMap_cons

theorem bitsOfBytes_append (left right : List UInt8) :
    bitsOfBytes (left ++ right) = bitsOfBytes left ++ bitsOfBytes right :=
  List.flatMap_append

/-! ## The table -/

/-- Each entry is what the division of its index leaves. -/
theorem c_CRCTable_eq (index : Fin 256) :
    c_CRCTable.getD index 0 =
      (divide crcPolynomial 0#32 (topBits 8 (BitVec.ofFin (w := 8) index))).toNat := by
  have entries : c_CRCTable = (List.finRange 256).map fun index =>
      (divide crcPolynomial 0#32
        (topBits 8 (BitVec.ofFin (w := 8) index))).toNat := by
    decide +kernel
  rw [entries, List.getD_eq_getElem?_getD, List.getElem?_map,
    List.getElem?_eq_getElem (by simp), List.getElem_finRange]
  rfl

/-- The highest byte of a register. -/
def highestByte (crc : BitVec 32) : BitVec 8 := (crc >>> 24).setWidth 8

theorem zipWith_topBits (crc : BitVec 32) (byte : BitVec 8) :
    List.zipWith xor (topBits 8 crc) (topBits 8 byte) =
      topBits 8 (highestByte crc ^^^ byte) := by
  rw [topBits, topBits, topBits, List.zipWith_map, List.zipWith_self]
  apply List.map_congr_left
  intro place member
  have less : place < 8 := List.mem_range.mp member
  have same : (highestByte crc).getMsbD place = crc.getMsbD place := by
    simp only [highestByte, BitVec.getMsbD, BitVec.getLsbD_setWidth,
      BitVec.getLsbD_ushiftRight]
    have inside : 8 - 1 - place < 8 := by omega
    have moved : 24 + (8 - 1 - place) = 32 - 1 - place := by omega
    simp [less, inside, moved, Nat.lt_of_lt_of_le less]
  rw [BitVec.getMsbD_xor, same]

theorem index_eq (crc : BitVec 32) (byte : UInt8) :
    ((crc.toNat >>> 24) ^^^ byte.toNat) &&& 0xFF =
      (highestByte crc ^^^ byte.toBitVec).toNat := by
  rw [BitVec.toNat_xor, highestByte, BitVec.toNat_setWidth,
    BitVec.toNat_ushiftRight, UInt8.toNat_toBitVec,
    Nat.and_two_pow_sub_one_eq_mod _ 8, Nat.xor_mod_two_pow,
    Nat.mod_eq_of_lt byte.toNat_lt]

/-- One byte by the table divides its eight bits. -/
theorem crcByte_eq (crc : BitVec 32) (byte : UInt8) :
    crcByte crc.toNat byte =
      (divide crcPolynomial crc (topBits 8 byte.toBitVec)).toNat := by
  rw [divide_chunk, length_topBits, zipWith_topBits, BitVec.toNat_xor,
    BitVec.toNat_shiftLeft, crcByte, index_eq]
  congr 1
  exact c_CRCTable_eq (highestByte crc ^^^ byte.toBitVec).toFin

/-! ## Blocks -/

theorem crcBytes_eq (crc : BitVec 32) (count : Nat) :
    crcBytes rgBlock count address crc.toNat =
      (divide crcPolynomial crc
        (bitsOfBytes (cellsAt rgBlock address count))).toNat := by
  induction count generalizing address crc with
  | zero => rfl
  | succ count inductionHypothesis =>
      rw [crcBytes, crcByte_eq, inductionHypothesis, cellsAt,
        bitsOfBytes_cons, divide_append]

theorem toInt32_toNat {value : Nat} (fits : value < 2 ^ 31) :
    (toInt32 value).toNat = value := by
  unfold toInt32
  omega

theorem computeCRC_eq (crc : BitVec 32) (nLength : Nat) :
    SUPPORT_ComputeCRC rgBlock address nLength crc.toNat =
      (divide crcPolynomial crc
        (bitsOfBytes
          (cellsAt rgBlock address (toInt32 nLength).toNat))).toNat :=
  crcBytes_eq crc (toInt32 nLength).toNat

end ChecksumDivision

/-- The checksum of two sequences, one after the other, goes on from the
checksum of the first, wherever the three lie in memory; and the checksum of
any block is what the bit-by-bit division of its bits leaves in the register. -/
theorem computeCRC_incremental_division :
    (∀ (left right : List UInt8) (crc : BitVec 32)
        (bothBlock leftBlock rightBlock : Bytes)
        (both first second : Nat),
      (left ++ right).length < 2 ^ 31 →
      Holds bothBlock both (left ++ right) →
      Holds leftBlock first left →
      Holds rightBlock second right →
      SUPPORT_ComputeCRC bothBlock both (left ++ right).length crc.toNat =
        SUPPORT_ComputeCRC rightBlock second right.length
          (SUPPORT_ComputeCRC leftBlock first left.length crc.toNat)) ∧
    ∀ (rgBlock : Bytes) (address nLength : Nat) (crc : BitVec 32),
      SUPPORT_ComputeCRC rgBlock address nLength crc.toNat =
        (divide crcPolynomial crc
          (bitsOfBytes
            (cellsAt rgBlock address (toInt32 nLength).toNat))).toNat := by
  refine ⟨?_, fun rgBlock address nLength crc => computeCRC_eq crc nLength⟩
  intro left right crc bothBlock leftBlock rightBlock both first second fits
    bothHeld leftHeld rightHeld
  rw [List.length_append] at fits
  unfold Holds at bothHeld leftHeld rightHeld
  rw [computeCRC_eq, computeCRC_eq crc left.length, computeCRC_eq,
    toInt32_toNat (by rw [List.length_append]; omega),
    toInt32_toNat (by omega), toInt32_toNat (by omega), bothHeld, leftHeld,
    rightHeld, bitsOfBytes_append, divide_append]

/-- The check value of the nine digits, in one block and in two. -/
theorem computeCRC_incremental_division_digits :
    SUPPORT_ComputeCRC (fun address => UInt8.ofNat (0x31 + address)) 0 9 0 =
      SUPPORT_ComputeCRC (fun address => UInt8.ofNat (0x31 + address)) 4 5
        (SUPPORT_ComputeCRC (fun address => UInt8.ofNat (0x31 + address)) 0 4
          0) :=
  computeCRC_incremental_division.1 [0x31, 0x32, 0x33, 0x34]
    [0x35, 0x36, 0x37, 0x38, 0x39] 0#32 _ _ _ 0 0 4 (by decide) rfl rfl rfl

/-- In terms of polynomials with coefficients in the field with two elements. -/
theorem computeCRC_remainder
    (rgBlock : Bytes)
    (address nLength : Nat)
    (crc : BitVec 32) :
    registerPolynomial
        (BitVec.ofNat 32 (SUPPORT_ComputeCRC rgBlock address nLength crc.toNat)) =
      let bits := bitsOfBytes (cellsAt rgBlock address (toInt32 nLength).toNat)
      (registerPolynomial crc * Polynomial.X ^ bits.length +
        messagePolynomial bits * Polynomial.X ^ 32).modByMonic
          (divisor crcPolynomial) := by
  rw [computeCRC_eq, BitVec.ofNat_toNat, BitVec.setWidth_eq,
    divide_eq_modByMonic]

end NanoClr
