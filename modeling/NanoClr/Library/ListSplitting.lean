import Mathlib.Algebra.Ring.Int.Defs
import Mathlib.Algebra.Ring.Nat
import Mathlib.Data.List.Basic
import Mathlib.Tactic.Common

/-!
# Splitting lists

A list is cut at the elements that separate its parts, but not into more than
some number of them.
-/

namespace NanoClr

variable {α : Type}

/-- Parts with what stands between them. -/
def interleave : List (List α) → List α → List α
  | part :: parts, separator :: separators =>
      part ++ separator :: interleave parts separators
  | part :: _, [] => part
  | [], _ => []

/-- The parts of a list: as many as there may and can be, none but the last
with a separator, and nothing is lost between them. -/
structure IsSplit (separates : α → Bool) (most : Nat) (whole : List α)
    (parts : List (List α)) (separators : List α) : Prop where
  count : parts.length = min most (1 + whole.countP separates)
  clean : ∀ part ∈ parts.dropLast, ∀ element ∈ part, separates element = false
  separators_length : separators.length + 1 = parts.length
  separating : ∀ separator ∈ separators, separates separator = true
  joined : interleave parts separators = whole

/-- The parts of the rest of a list behind the start of one, if there may be
`further` parts after that. -/
def splitParts (separates : α → Bool) :
    Nat → List α → List α → List (List α)
  | _, part, [] => [part]
  | 0, part, element :: rest =>
      splitParts separates 0 (part ++ [element]) rest
  | further + 1, part, element :: rest =>
      if separates element then
        part :: splitParts separates further [] rest
      else
        splitParts separates (further + 1) (part ++ [element]) rest

section Splitting

attribute [local simp] interleave splitParts

variable {separates : α → Bool} {further : Nat} {part rest : List α}

theorem splitParts_none :
    splitParts separates 0 part rest = [part ++ rest] := by
  induction rest generalizing part with
  | nil => rw [splitParts, List.append_nil]
  | cons element rest inductionHypothesis =>
      rw [splitParts, inductionHypothesis, List.append_assoc]
      rfl

theorem splitParts_map
    {β : Type}
    (f : β → α)
    {part rest : List β} :
    splitParts separates further (part.map f) (rest.map f) =
      (splitParts (fun element => separates (f element)) further part
        rest).map (List.map f) := by
  induction rest generalizing further part with
  | nil => rfl
  | cons element rest inductionHypothesis =>
      have longer (further : Nat) :
          splitParts separates further (part.map f ++ [f element])
              (rest.map f) =
            (splitParts (fun element => separates (f element)) further
              (part ++ [element]) rest).map (List.map f) := by
        rw [← inductionHypothesis, List.map_append]
        rfl
      cases further with
      | zero => exact longer 0
      | succ further =>
          rw [List.map_cons, splitParts, splitParts]
          split
          · rw [List.map_cons, ← inductionHypothesis]
            rfl
          · exact longer (further + 1)

theorem isSplit_last
    (most : Nat)
    (positive : 0 < most)
    (clean : most = 1 ∨ part.countP separates = 0) :
    IsSplit separates most part [part] [] where
  count := by
    rw [List.length_singleton]
    omega
  clean := nofun
  separators_length := rfl
  separating := nofun
  joined := rfl

/-- A part without separators in front. -/
theorem IsSplit.cons
    {whole separators : List α}
    {parts : List (List α)}
    {most : Nat}
    {separator : α}
    (isSplit : IsSplit separates most whole parts separators)
    (clean : ∀ element ∈ part, separates element = false)
    (separating : separates separator = true) :
    IsSplit separates (most + 1) (part ++ separator :: whole) (part :: parts)
      (separator :: separators) where
  count := by
    have noneHere : part.countP separates = 0 :=
      List.countP_eq_zero.mpr fun element member =>
        Bool.eq_false_iff.mp (clean element member)
    rw [List.length_cons, isSplit.count, List.countP_append, noneHere,
      List.countP_cons_of_pos separating]
    omega
  clean := by
    have someParts : parts ≠ [] := by
      rintro rfl
      exact absurd isSplit.separators_length (Nat.succ_ne_zero _)
    rw [List.dropLast_cons_of_ne_nil someParts, List.forall_mem_cons]
    exact ⟨clean, isSplit.clean⟩
  separators_length := by
    rw [List.length_cons, List.length_cons, isSplit.separators_length]
  separating := List.forall_mem_cons.mpr ⟨separating, isSplit.separating⟩
  joined := by rw [interleave, isSplit.joined]

theorem isSplit_splitParts
    (clean : ∀ element ∈ part, separates element = false) :
    ∃ separators, IsSplit separates (further + 1) (part ++ rest)
      (splitParts separates further part rest) separators := by
  induction rest generalizing further part with
  | nil =>
      refine ⟨[], ?_⟩
      rw [splitParts, List.append_nil]
      exact isSplit_last (further + 1) (Nat.succ_pos _)
        (Or.inr (List.countP_eq_zero.mpr fun element member =>
          Bool.eq_false_iff.mp (clean element member)))
  | cons element rest inductionHypothesis =>
      cases further with
      | zero =>
          refine ⟨[], ?_⟩
          rw [splitParts_none]
          exact isSplit_last 1 Nat.one_pos (Or.inl rfl)
      | succ further =>
          rw [splitParts]
          cases separated : separates element with
          | true =>
              obtain ⟨separators, isSplit⟩ :=
                @inductionHypothesis further [] nofun
              exact ⟨element :: separators, isSplit.cons clean separated⟩
          | false =>
              have cleanLonger : ∀ other ∈ part ++ [element],
                  separates other = false := by
                rw [List.forall_mem_append]
                exact ⟨clean, List.forall_mem_singleton.mpr separated⟩
              have isSplit := @inductionHypothesis (further + 1) _ cleanLonger
              rw [List.append_assoc] at isSplit
              exact isSplit

end Splitting

end NanoClr
