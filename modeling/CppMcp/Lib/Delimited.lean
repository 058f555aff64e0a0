import Mathlib.Data.List.Basic
import Mathlib.Tactic.Common

namespace CppMcp.Lib

variable {α : Type} [DecidableEq α] (x y : α)

/-- The pieces of a text between the occurrences of a separator of two symbols. -/
def splitPair : List α → List (List α)
  | [] => [[]]
  | [a] => [[a]]
  | a :: b :: rest =>
    if a = x ∧ b = y then [] :: splitPair rest
    else (splitPair (b :: rest)).modifyHead (a :: ·)

variable {x y}

theorem splitPair_cons {a : α} (other : a ≠ x) (rest : List α) :
    splitPair x y (a :: rest) = (splitPair x y rest).modifyHead (a :: ·) := by
  cases rest with
  | nil => rfl
  | cons b rest => rw [splitPair, if_neg (by simp [other])]

theorem splitPair_line {line : List α} (plain : x ∉ line) : splitPair x y line = [line] := by
  induction line with
  | nil => rfl
  | cons a line ih =>
    obtain ⟨other, plain⟩ := not_or.mp (List.mem_cons.not.mp plain)
    rw [splitPair_cons (Ne.symm other), ih plain]
    rfl

theorem splitPair_append {line : List α} (plain : x ∉ line) (rest : List α) :
    splitPair x y (line ++ x :: y :: rest) = line :: splitPair x y rest := by
  induction line with
  | nil => simp [splitPair]
  | cons a line ih =>
    obtain ⟨other, plain⟩ := not_or.mp (List.mem_cons.not.mp plain)
    rw [List.cons_append, splitPair_cons (Ne.symm other), ih plain]
    rfl

/-- Joined lines come apart again when no line has the first symbol of the separator. -/
theorem splitPair_intercalate {lines : List (List α)} (nonempty : lines ≠ [])
    (plain : ∀ line ∈ lines, x ∉ line) : splitPair x y ([x, y].intercalate lines) = lines := by
  induction lines with
  | nil => exact absurd rfl nonempty
  | cons line lines ih =>
    obtain ⟨first, others⟩ := List.forall_mem_cons.mp plain
    cases lines with
    | nil => rw [List.intercalate_singleton, splitPair_line first]
    | cons next lines =>
      rw [List.intercalate_cons_cons, List.append_assoc, List.cons_append, List.cons_append,
        List.nil_append, splitPair_append first, ih (by simp) others]

end CppMcp.Lib
