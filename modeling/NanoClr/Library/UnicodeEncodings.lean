import Mathlib.Algebra.Ring.Int.Defs
import Mathlib.Algebra.Ring.Nat
import Mathlib.Tactic.Common

/-!
# Encodings of characters

The bytes of a character by its size, and its units in UTF-16.
-/

namespace NanoClr

/-- The units of a character; one outside the basic multilingual plane takes
a pair of surrogates. -/
def utf16EncodeChar (character : Char) : List UInt16 :=
  let code := character.toNat
  if code < 0x10000 then
    [UInt16.ofNat code]
  else
    [UInt16.ofNat (0xD800 + (code - 0x10000) / 0x400),
      UInt16.ofNat (0xDC00 + (code - 0x10000) % 0x400)]

section UnicodeEncodings

variable (character : Char)

theorem character_lt : character.toNat < 0x110000 := by
  rcases character.valid with low | high
  · have below : character.toNat < 0xD800 := low
    omega
  · exact high.2

/-- No character is a surrogate. -/
theorem character_notSurrogate :
    character.toNat < 0xD800 ∨ 0xDFFF < character.toNat := by
  rcases character.valid with low | high
  · exact Or.inl low
  · exact Or.inr high.1

section Forms

variable {character}

theorem utf8EncodeChar_one (small : character.toNat < 0x80) :
    String.utf8EncodeChar character = [UInt8.ofNat character.toNat] := by
  have bound : character.val.toNat ≤ 0x7F := Nat.le_of_lt_succ small
  rw [String.utf8EncodeChar]
  rw [if_pos bound]
  rfl

theorem utf8EncodeChar_two
    (large : 0x80 ≤ character.toNat)
    (small : character.toNat < 0x800) :
    String.utf8EncodeChar character =
      [UInt8.ofNat (character.toNat / 64 % 32 + 0xC0),
        UInt8.ofNat (character.toNat % 64 + 0x80)] := by
  have lower : ¬ character.val.toNat ≤ 0x7F := Nat.not_le.mpr large
  have upper : character.val.toNat ≤ 0x7FF := Nat.le_of_lt_succ small
  rw [String.utf8EncodeChar]
  rw [if_neg lower, if_pos upper]
  rfl

theorem utf8EncodeChar_three
    (large : 0x800 ≤ character.toNat)
    (small : character.toNat < 0x10000) :
    String.utf8EncodeChar character =
      [UInt8.ofNat (character.toNat / 4096 % 16 + 0xE0),
        UInt8.ofNat (character.toNat / 64 % 64 + 0x80),
        UInt8.ofNat (character.toNat % 64 + 0x80)] := by
  have lowest : ¬ character.val.toNat ≤ 0x7F :=
    Nat.not_le.mpr (Nat.lt_of_lt_of_le (by decide) large)
  have lower : ¬ character.val.toNat ≤ 0x7FF := Nat.not_le.mpr large
  have upper : character.val.toNat ≤ 0xFFFF := Nat.le_of_lt_succ small
  rw [String.utf8EncodeChar]
  rw [if_neg lowest, if_neg lower, if_pos upper]
  rfl

theorem utf8EncodeChar_four (large : 0x10000 ≤ character.toNat) :
    String.utf8EncodeChar character =
      [UInt8.ofNat (character.toNat / 262144 % 8 + 0xF0),
        UInt8.ofNat (character.toNat / 4096 % 64 + 0x80),
        UInt8.ofNat (character.toNat / 64 % 64 + 0x80),
        UInt8.ofNat (character.toNat % 64 + 0x80)] := by
  have lowest : ¬ character.val.toNat ≤ 0x7F :=
    Nat.not_le.mpr (Nat.lt_of_lt_of_le (by decide) large)
  have lower : ¬ character.val.toNat ≤ 0x7FF :=
    Nat.not_le.mpr (Nat.lt_of_lt_of_le (by decide) large)
  have upper : ¬ character.val.toNat ≤ 0xFFFF := Nat.not_le.mpr large
  rw [String.utf8EncodeChar]
  rw [if_neg lowest, if_neg lower, if_neg upper]
  rfl

theorem utf16EncodeChar_one (small : character.toNat < 0x10000) :
    utf16EncodeChar character = [UInt16.ofNat character.toNat] :=
  if_pos small

theorem utf16EncodeChar_two (large : 0x10000 ≤ character.toNat) :
    utf16EncodeChar character =
      [UInt16.ofNat (0xD800 + (character.toNat - 0x10000) / 0x400),
        UInt16.ofNat (0xDC00 + (character.toNat - 0x10000) % 0x400)] :=
  if_neg (Nat.not_lt.mpr large)

end Forms

/-- The ways in which a character is encoded. -/
theorem character_cases {motive : Prop}
    (one : character.toNat < 0x80 → motive)
    (two : 0x80 ≤ character.toNat → character.toNat < 0x800 → motive)
    (three : 0x800 ≤ character.toNat → character.toNat < 0x10000 → motive)
    (four : 0x10000 ≤ character.toNat → motive) : motive := by
  rcases Nat.lt_or_ge character.toNat 0x80 with small | large
  · exact one small
  · rcases Nat.lt_or_ge character.toNat 0x800 with small | larger
    · exact two large small
    · rcases Nat.lt_or_ge character.toNat 0x10000 with small | largest
      · exact three larger small
      · exact four largest

theorem utf16EncodeChar_length_pos :
    0 < (utf16EncodeChar character).length := by
  unfold utf16EncodeChar
  dsimp only
  split
  · exact Nat.one_pos
  · exact Nat.two_pos

end UnicodeEncodings

end NanoClr
