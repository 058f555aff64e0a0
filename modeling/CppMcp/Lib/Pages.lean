import Mathlib.Tactic.Common

namespace CppMcp.Lib

variable {α γ : Type}

/-- Follow the cursors from page to page, to a page without one. `fetch` knows how many
    pages there were before. -/
def follow (fetch : Nat → γ → Option (List α × Option γ)) : Nat → Nat → γ → Option (List (List α))
  | 0, _, _ => none
  | fuel + 1, k, cursor =>
    match fetch k cursor with
    | some (page, none) => some [page]
    | some (page, some next) => (follow fetch fuel (k + 1) next).map fun pages => page :: pages
    | none => none

/-- A cursor that stands for an offset brings the page from there, and behind a page that is not
    the last a cursor that stands for its end. -/
def Paged (fetch : Nat → γ → Option (List α × Option γ)) (items : List α) (size : Nat)
    (stands : γ → Nat → Prop) : Prop :=
  ∀ k cursor offset, stands cursor offset → offset ≤ items.length → ∃ next,
    fetch k cursor = some ((items.drop offset).take size, next) ∧
    ((items.length ≤ offset + size ∧ next = none) ∨
      offset + size < items.length ∧ ∃ cursor', next = some cursor' ∧ stands cursor' (offset + size))

/-- The pages cut a list into pieces of one size, the last as long as what is left. -/
structure Pages (size : Nat) (items : List α) (pages : List (List α)) : Prop where
  flatten : pages.flatten = items
  full : ∀ page ∈ pages.dropLast, page.length = size
  nonempty : pages ≠ []

theorem Pages.last {items : List α} {size : Nat} (short : items.length ≤ size) :
    Pages size items [items.take size] where
  flatten := by
    rw [List.flatten_singleton, List.take_of_length_le short]
  full page member := by cases member
  nonempty := List.cons_ne_nil _ _

theorem Pages.cons {items : List α} {size : Nat} {pages : List (List α)}
    (long : size ≤ items.length) (rest : Pages size (items.drop size) pages) :
    Pages size items (items.take size :: pages) where
  flatten := by
    rw [List.flatten_cons, rest.flatten, List.take_append_drop]
  full page member := by
    rw [List.dropLast_cons_of_ne_nil rest.nonempty] at member
    rcases List.mem_cons.mp member with rfl | member
    · rw [List.length_take]
      omega
    · exact rest.full page member
  nonempty := List.cons_ne_nil _ _

/-- Enough calls bring the rest of the list, from any offset that a cursor stands for. -/
theorem follow_pages {fetch : Nat → γ → Option (List α × Option γ)} {items : List α} {size : Nat}
    {stands : γ → Nat → Prop} (paged : Paged fetch items size stands) (positive : 0 < size)
    {fuel : Nat} (k : Nat) {cursor : γ} {offset : Nat} (stand : stands cursor offset)
    (inside : offset ≤ items.length) (enough : items.length - offset < fuel) :
    ∃ pages, follow fetch fuel k cursor = some pages ∧ Pages size (items.drop offset) pages := by
  induction fuel generalizing k cursor offset with
  | zero => omega
  | succ fuel ih =>
    have remaining : (items.drop offset).length = items.length - offset := List.length_drop
    obtain ⟨next, fetched, ⟨short, rfl⟩ | ⟨long, cursor', rfl, stand'⟩⟩ :=
      paged k cursor offset stand inside
    · refine ⟨[(items.drop offset).take size], ?_, Pages.last (by omega)⟩
      simp only [follow, fetched]
    · obtain ⟨pages, followed, rest⟩ := ih (k + 1) stand' (by omega) (by omega)
      refine ⟨(items.drop offset).take size :: pages, ?_, Pages.cons (by omega) ?_⟩
      · simp only [follow, fetched, followed, Option.map_some]
      · rw [List.drop_drop]
        exact rest

end CppMcp.Lib
