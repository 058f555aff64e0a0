import Mathlib.Data.List.AList

namespace CppMcp.Lib

section
variable {α β : Type} [DecidableEq α]

/-- What is found behind a write was written or is an entry of another key. -/
theorem lookup_insert_cases {table : AList fun _ : α => β} {new key : α} {value found : β}
    (h : (table.insert new value).lookup key = some found) :
    (key = new ∧ found = value) ∨ (key ≠ new ∧ table.lookup key = some found) := by
  by_cases same : key = new
  · subst same
    rw [AList.lookup_insert] at h
    exact .inl ⟨rfl, (Option.some.inj h).symm⟩
  · rw [AList.lookup_insert_ne same] at h
    exact .inr ⟨same, h⟩

theorem lookup_erase {table : AList fun _ : α => β} {gone key : α} {found : β}
    (h : (table.erase gone).lookup key = some found) :
    key ≠ gone ∧ table.lookup key = some found := by
  by_cases same : key = gone
  · subst same
    rw [AList.lookup_erase] at h
    cases h
  · rw [AList.lookup_erase_ne same] at h
    exact ⟨same, h⟩

/-- An entry that is found is the one that an erasure takes away. -/
theorem entries_perm_erase {table : AList fun _ : α => β} {key : α} {value : β}
    (found : table.lookup key = some value) :
    table.entries.Perm (⟨key, value⟩ :: (table.erase key).entries) := by
  have member : key ∈ table.entries.keys := AList.lookup_isSome.mp (Option.isSome_of_eq_some found)
  obtain ⟨stored, front, back, -, split, erased⟩ := List.exists_of_kerase member
  have here : (⟨key, stored⟩ : Sigma fun _ : α => β) ∈ table.entries := by simp [split]
  obtain rfl : value = stored :=
    Option.some.inj (found.symm.trans (AList.mem_lookup_iff.mpr here))
  show table.entries.Perm (⟨key, value⟩ :: table.entries.kerase key)
  rw [erased]
  exact (List.Perm.of_eq split).trans List.perm_middle

theorem lookup_foldl_erase (keys : List α) (table : AList fun _ : α => β) (key : α) :
    (keys.foldl (fun table key => table.erase key) table).lookup key =
      if key ∈ keys then none else table.lookup key := by
  induction keys generalizing table with
  | nil => simp
  | cons head keys ih =>
    rw [List.foldl_cons, ih]
    by_cases own : key = head
    · subst own
      simp [AList.lookup_erase]
    · simp [own, AList.lookup_erase_ne own]

theorem mem_foldl_erase (keys : List α) (table : AList fun _ : α => β) (key : α) :
    key ∈ keys.foldl (fun table key => table.erase key) table ↔ key ∈ table ∧ key ∉ keys := by
  rw [← AList.lookup_isSome, ← AList.lookup_isSome, lookup_foldl_erase]
  split
  · rename_i member
    simp [member]
  · rename_i other
    simp [other]

theorem erase_insert {key : α} {table : AList fun _ : α => β} (fresh : key ∉ table) (value : β) :
    (table.insert key value).erase key = table := by
  apply AList.ext
  show List.kerase key (table.insert key value).entries = table.entries
  rw [AList.entries_insert_of_notMem fresh]
  exact List.kerase_cons_eq rfl

theorem length_keys_insert (table : AList fun _ : α => β) (key : α) (value : β) :
    (table.insert key value).keys.length ≤ table.keys.length + 1 := by
  rw [AList.keys_insert, List.length_cons]
  exact Nat.succ_le_succ List.length_erase_le

theorem length_keys_erase (table : AList fun _ : α => β) (key : α) :
    (table.erase key).keys.length ≤ table.keys.length := by
  rw [AList.keys_erase]
  exact List.length_erase_le

theorem length_keys_foldl_erase (keys : List α) (table : AList fun _ : α => β) :
    (keys.foldl (fun table key => table.erase key) table).keys.length ≤ table.keys.length := by
  induction keys generalizing table with
  | nil => exact le_rfl
  | cons key keys ih =>
    have rest := ih (table.erase key)
    have first := length_keys_erase table key
    exact Nat.le_trans rest first

omit [DecidableEq α] in
/-- Tables with the same keys are equally large. -/
theorem length_keys_congr {γ : Type} {left : AList fun _ : α => β} {right : AList fun _ : α => γ}
    (same : ∀ key, key ∈ left ↔ key ∈ right) : left.keys.length = right.keys.length :=
  ((List.perm_ext_iff_of_nodup left.keys_nodup right.keys_nodup).mpr same).length_eq

end

end CppMcp.Lib
