import Mathlib.Tactic.Common

namespace CppMcp.Lib

section
variable {κ β : Type} [DecidableEq κ]

/-- The latest value a history has for a key. -/
def latest (history : List (κ × β)) (key : κ) : Option β :=
  ((history.filter fun entry => entry.1 = key).getLast?).map Prod.snd

@[simp] theorem latest_nil (key : κ) : latest ([] : List (κ × β)) key = none := rfl

theorem latest_append (history : List (κ × β)) (key' : κ) (value : β) (key : κ) :
    latest (history ++ [(key', value)]) key =
      if key' = key then some value else latest history key := by
  unfold latest
  rw [List.filter_append]
  split
  · rename_i same
    simp [same]
  · rename_i other
    simp [other]

theorem latest_mem {history : List (κ × β)} {key : κ} {value : β}
    (found : latest history key = some value) : (key, value) ∈ history := by
  obtain ⟨entry, last, rfl⟩ := Option.map_eq_some_iff.mp found
  have member := List.mem_filter.mp (List.mem_of_getLast? last)
  have named : entry.1 = key := by simpa using member.2
  rw [← named]
  exact member.1

end

end CppMcp.Lib
