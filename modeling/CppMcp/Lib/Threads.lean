import Mathlib.Algebra.Ring.Nat
import Mathlib.Tactic.Common

namespace CppMcp.Lib

section
variable {α β : Type} {threads : List α} {place : Nat} {a b : α}

/-- One thread moves: what is counted changes by that thread alone. -/
theorem countP_moves (counted : α → Bool) (found : threads[place]? = some a) :
    (threads.set place b).countP counted + (counted a).toNat =
      threads.countP counted + (counted b).toNat := by
  obtain ⟨inside, rfl⟩ := List.getElem?_eq_some_iff.mp found
  have positive : counted threads[place] = true → 0 < threads.countP counted := fun holds =>
    List.countP_pos_iff.mpr ⟨_, List.getElem_mem inside, holds⟩
  rw [List.countP_set inside]
  cases before : counted threads[place] with
  | true =>
    have some := positive before
    cases counted b <;> simp <;> omega
  | false => cases counted b <;> simp

theorem map_moves (f : α → β) (found : threads[place]? = some a) (same : f b = f a) :
    (threads.set place b).map f = threads.map f := by
  obtain ⟨inside, rfl⟩ := List.getElem?_eq_some_iff.mp found
  have mapped : place < (threads.map f).length := by
    rw [List.length_map]
    exact inside
  rw [List.map_set, same, ← List.getElem_map f (h := mapped), List.set_getElem_self]

theorem sum_moves (weight : α → Nat) (found : threads[place]? = some a) :
    ((threads.set place b).map weight).sum + weight a = (threads.map weight).sum + weight b := by
  induction threads generalizing place with
  | nil => simp at found
  | cons first rest ih =>
    cases place with
    | zero =>
      simp only [List.getElem?_cons_zero, Option.some.injEq] at found
      subst found
      simp only [List.set_cons_zero, List.map_cons, List.sum_cons]
      omega
    | succ place =>
      have there : rest[place]? = some a := by simpa using found
      have later := ih there
      simp only [List.set_cons_succ, List.map_cons, List.sum_cons]
      omega

/-- A thread that differs from the one that moves is still among them. -/
theorem mem_moves (found : threads[place]? = some a) {c : α} (member : c ∈ threads)
    (other : c ≠ a) : c ∈ threads.set place b := by
  obtain ⟨i, at_i⟩ := List.mem_iff_getElem?.mp member
  have apart : place ≠ i := by
    intro same
    rw [← same, found] at at_i
    exact other (Option.some.inj at_i).symm
  refine List.mem_iff_getElem?.mpr ⟨i, ?_⟩
  exact (List.getElem?_set_ne apart).trans at_i

end

end CppMcp.Lib
