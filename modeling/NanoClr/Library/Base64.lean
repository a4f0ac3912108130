import NanoClr.Library.Cells

/-!
# Base 64

The encoding of octets by letters of six bits each, with padding, and text that
is broken into lines.
-/

namespace NanoClr

section Encoding

variable {α : Type} (letter : Nat → α) (pad : α)

/-- The encoding: three octets become four letters, and padding stands for the
octets that are missing at the end. -/
def encode64 : List UInt8 → List α
  | [] => []
  | [first] =>
      [letter (first.toNat / 4), letter (first.toNat % 4 * 16), pad, pad]
  | [first, second] =>
      [letter (first.toNat / 4),
        letter (first.toNat % 4 * 16 + second.toNat / 16),
        letter (second.toNat % 16 * 4), pad]
  | first :: second :: third :: rest =>
      letter (first.toNat / 4) ::
        letter (first.toNat % 4 * 16 + second.toNat / 16) ::
        letter (second.toNat % 16 * 4 + third.toNat / 64) ::
        letter (third.toNat % 64) :: encode64 rest

attribute [local simp] encode64

variable {letter pad}

theorem length_encode64 :
    ∀ octets : List UInt8,
      (encode64 letter pad octets).length = 4 * ((octets.length + 2) / 3)
  | [] => rfl
  | [_] => by simp [encode64]
  | [_, _] => by simp [encode64]
  | first :: second :: third :: rest => by
      rw [encode64]
      simp only [List.length_cons, length_encode64 rest]
      omega

/-- What every letter and the padding have, every character of an encoding
has. -/
theorem forall_mem_encode64
    {P : α → Prop}
    (letters : ∀ number < 64, P (letter number))
    (padding : P pad) :
    ∀ octets : List UInt8, ∀ character ∈ encode64 letter pad octets, P character
  | [] => List.forall_mem_nil P
  | [first] => by
      have byte := first.toNat_lt
      rw [encode64]
      simp only [List.forall_mem_cons]
      exact ⟨letters _ (by omega), letters _ (by omega), padding, padding, nofun⟩
  | [first, second] => by
      have byte := first.toNat_lt
      have next := second.toNat_lt
      rw [encode64]
      simp only [List.forall_mem_cons]
      exact ⟨letters _ (by omega), letters _ (by omega), letters _ (by omega),
        padding, nofun⟩
  | first :: second :: third :: rest => by
      have byte := first.toNat_lt
      have next := second.toNat_lt
      have last := third.toNat_lt
      rw [encode64]
      simp only [List.forall_mem_cons]
      exact ⟨letters _ (by omega), letters _ (by omega), letters _ (by omega),
        letters _ (by omega), forall_mem_encode64 letters padding rest⟩

/-- The last character is padding unless the octets come in threes. -/
theorem encode64_last
    (notPad : ∀ number < 64, letter number ≠ pad) :
    ∀ octets : List UInt8, octets ≠ [] →
      ((encode64 letter pad octets)[4 * ((octets.length + 2) / 3) - 1]? =
        some pad ↔ octets.length % 3 ≠ 0)
  | [_], _ => by simp [encode64]
  | [_, _], _ => by simp [encode64]
  | [first, second, third], _ => by
      have last := third.toNat_lt
      simp [encode64, notPad (third.toNat % 64) (by omega)]
  | first :: second :: third :: fourth :: rest, _ => by
      have rest_last := encode64_last notPad (fourth :: rest)
        (List.cons_ne_nil _ _)
      rw [encode64]
      have place : 4 * (((first :: second :: third :: fourth ::
          rest).length + 2) / 3) - 1 =
            4 * (((fourth :: rest).length + 2) / 3) - 1 + 4 := by
        simp only [List.length_cons]
        omega
      have same : (first :: second :: third :: fourth :: rest).length % 3 =
          (fourth :: rest).length % 3 := by
        simp only [List.length_cons]
        omega
      rw [place, same]
      exact rest_last

/-- The last character but one is padding where one octet is left over. -/
theorem encode64_beforeLast
    (notPad : ∀ number < 64, letter number ≠ pad) :
    ∀ octets : List UInt8, octets ≠ [] →
      ((encode64 letter pad octets)[4 * ((octets.length + 2) / 3) - 2]? =
        some pad ↔ octets.length % 3 = 1)
  | [_], _ => by simp [encode64]
  | [first, second], _ => by
      have next := second.toNat_lt
      simp [encode64, notPad (second.toNat % 16 * 4) (by omega)]
  | [first, second, third], _ => by
      have next := second.toNat_lt
      have last := third.toNat_lt
      simp [encode64, notPad (second.toNat % 16 * 4 + third.toNat / 64)
        (by omega)]
  | first :: second :: third :: fourth :: rest, _ => by
      have rest_last := encode64_beforeLast notPad (fourth :: rest)
        (List.cons_ne_nil _ _)
      rw [encode64]
      have place : 4 * (((first :: second :: third :: fourth ::
          rest).length + 2) / 3) - 2 =
            4 * (((fourth :: rest).length + 2) / 3) - 2 + 4 := by
        simp only [List.length_cons]
        omega
      have same : (first :: second :: third :: fourth :: rest).length % 3 =
          (fourth :: rest).length % 3 := by
        simp only [List.length_cons]
        omega
      rw [place, same]
      exact rest_last

end Encoding

/-! ## Lines -/

section Lines

variable {α : Type} (width : Nat) (lineBreak : List α)

/-- A text with a line break after as many characters as a line has, over a
number of lines. -/
def breakLines : Nat → List α → List α
  | 0, text => text
  | count + 1, text =>
      text.take width ++ lineBreak ++ breakLines count (text.drop width)

/-- A text with a line break after every full line. -/
def withLineBreaks (text : List α) : List α :=
  breakLines width lineBreak (text.length / width) text

variable {width lineBreak}

theorem length_breakLines
    {count : Nat}
    {text : List α}
    (fits : count * width ≤ text.length) :
    (breakLines width lineBreak count text).length =
      text.length + count * lineBreak.length := by
  induction count generalizing text with
  | zero => rw [breakLines, Nat.zero_mul, Nat.add_zero]
  | succ count inductionHypothesis =>
      rw [Nat.succ_mul] at fits
      have rest : count * width ≤ (text.drop width).length := by
        rw [List.length_drop]
        omega
      rw [breakLines, List.length_append, List.length_append,
        inductionHypothesis rest, List.length_take, List.length_drop,
        Nat.succ_mul]
      omega

theorem forall_mem_breakLines
    {P : α → Prop}
    (breaks : ∀ character ∈ lineBreak, P character)
    (count : Nat)
    {text : List α}
    (all : ∀ character ∈ text, P character) :
    ∀ character ∈ breakLines width lineBreak count text, P character := by
  induction count generalizing text with
  | zero => exact all
  | succ count inductionHypothesis =>
      rw [breakLines, List.forall_mem_append, List.forall_mem_append]
      refine ⟨⟨?_, breaks⟩, inductionHypothesis ?_⟩
      · exact fun character member => all character (List.mem_of_mem_take member)
      · exact fun character member => all character (List.mem_of_mem_drop member)

end Lines

end NanoClr
