import Mathlib.Algebra.Ring.Nat
import Mathlib.Tactic.Common

namespace CppMcp.Lib

section
variable {κ ν : Type} [DecidableEq κ]

@[simp] theorem lookup_entry (k other : κ) (v : ν) (rest : List (κ × ν)) :
    ((k, v) :: rest).lookup other = if other = k then some v else rest.lookup other := by
  by_cases h : other = k
  · simp [h]
  · have off : (other == k) = false := beq_false_of_ne h
    simp [List.lookup_cons, off, h]

variable [LT κ] [DecidableLT κ]

/-- Write to a map whose entries stand in key order. -/
def insertSorted (key : κ) (value : ν) : List (κ × ν) → List (κ × ν)
  | [] => [(key, value)]
  | (k, v) :: rest =>
    if key < k then (key, value) :: (k, v) :: rest
    else if key = k then (key, value) :: rest
    else (k, v) :: insertSorted key value rest

theorem lookup_insertSorted (key other : κ) (value : ν) (entries : List (κ × ν)) :
    (insertSorted key value entries).lookup other =
      if other = key then some value else entries.lookup other := by
  induction entries with
  | nil => simp [insertSorted]
  | cons entry rest ih =>
    obtain ⟨k, v⟩ := entry
    unfold insertSorted
    split
    · rw [lookup_entry]
    · split
      · rename_i same
        subst same
        by_cases h : other = key <;> simp [h]
      · rename_i ne
        by_cases hk : other = k
        · subst hk
          simp [Ne.symm ne]
        · simp [hk, ih]

theorem map_insertSorted {ν' : Type} (f : ν → ν') (key : κ) (value : ν) (entries : List (κ × ν)) :
    (insertSorted key value entries).map (fun entry => (entry.1, f entry.2)) =
      insertSorted key (f value) (entries.map fun entry => (entry.1, f entry.2)) := by
  induction entries with
  | nil => rfl
  | cons entry rest ih =>
    obtain ⟨k, v⟩ := entry
    simp only [insertSorted, List.map_cons]
    split
    · rfl
    · split
      · rfl
      · simp only [List.map_cons, ih]

theorem mem_of_insertSorted {key : κ} {value : ν} {entries : List (κ × ν)} {entry : κ × ν}
    (h : entry ∈ insertSorted key value entries) : entry = (key, value) ∨ entry ∈ entries := by
  induction entries with
  | nil => exact .inl (by simpa [insertSorted] using h)
  | cons first rest ih =>
    unfold insertSorted at h
    split at h
    · simpa using h
    · split at h
      · rcases List.mem_cons.mp h with same | old
        · exact .inl same
        · exact .inr (List.mem_cons_of_mem _ old)
      · rcases List.mem_cons.mp h with same | old
        · exact .inr (same ▸ List.mem_cons_self)
        · exact (ih old).imp id (List.mem_cons_of_mem _)

/-- A write keeps the keys in order. -/
theorem sorted_insertSorted (trans : ∀ a b c : κ, a < b → b < c → a < c)
    (total : ∀ a b : κ, ¬ a < b → a ≠ b → b < a) (key : κ) (value : ν)
    {entries : List (κ × ν)} (sorted : (entries.map Prod.fst).Pairwise (· < ·)) :
    ((insertSorted key value entries).map Prod.fst).Pairwise (· < ·) := by
  induction entries with
  | nil => exact List.pairwise_singleton ..
  | cons entry rest ih =>
    obtain ⟨k, v⟩ := entry
    obtain ⟨first, later⟩ := List.pairwise_cons.mp sorted
    unfold insertSorted
    split
    · rename_i less
      refine List.pairwise_cons.mpr ⟨fun other member => ?_, sorted⟩
      rcases List.mem_cons.mp member with rfl | behind
      · exact less
      · exact trans _ _ _ less (first other behind)
    · rename_i notLess
      split
      · rename_i same
        exact List.pairwise_cons.mpr ⟨same ▸ first, later⟩
      · rename_i other
        refine List.pairwise_cons.mpr ⟨fun j member => ?_, ih later⟩
        obtain ⟨⟨_, w⟩, written, rfl⟩ := List.mem_map.mp member
        rcases mem_of_insertSorted written with same | old
        · rw [(Prod.mk.inj same).1]
          exact total _ _ notLess other
        · exact first _ (List.mem_map.mpr ⟨_, old, rfl⟩)

/-- Write the entries to the map one after the other. -/
def insertAll (entries map : List (κ × ν)) : List (κ × ν) :=
  entries.foldl (fun map entry => insertSorted entry.1 entry.2 map) map

theorem lookup_insertAll_other {key : κ} {entries : List (κ × ν)}
    (absent : key ∉ entries.map Prod.fst) (map : List (κ × ν)) :
    (insertAll entries map).lookup key = map.lookup key := by
  induction entries generalizing map with
  | nil => rfl
  | cons entry rest ih =>
    obtain ⟨other, absent⟩ := not_or.mp (List.mem_cons.not.mp absent)
    exact (ih absent _).trans ((lookup_insertSorted ..).trans (if_neg other))

/-- Entries with keys of their own are all found. -/
theorem lookup_insertAll {entries : List (κ × ν)} (distinct : (entries.map Prod.fst).Nodup)
    {entry : κ × ν} (member : entry ∈ entries) (map : List (κ × ν)) :
    (insertAll entries map).lookup entry.1 = some entry.2 := by
  induction entries generalizing map with
  | nil => cases member
  | cons first rest ih =>
    obtain ⟨fresh, distinct⟩ := List.nodup_cons.mp distinct
    rcases List.mem_cons.mp member with rfl | later
    · exact (lookup_insertAll_other fresh _).trans ((lookup_insertSorted ..).trans (if_pos rfl))
    · exact ih distinct later _

/-- What is written last is found. -/
theorem lookup_insertAll_last (key : κ) (entries map : List (κ × ν)) :
    (insertAll entries map).lookup key = (entries.reverse.lookup key).or (map.lookup key) := by
  induction entries generalizing map with
  | nil => rfl
  | cons entry rest ih =>
    obtain ⟨k, v⟩ := entry
    show (insertAll rest (insertSorted k v map)).lookup key = _
    rw [ih, lookup_insertSorted, List.reverse_cons, List.lookup_append, Option.or_assoc]
    congr 1
    rw [lookup_entry]
    by_cases same : key = k <;> simp [same]

theorem keys_insertSorted {key : κ} {entries : List (κ × ν)}
    (fresh : key ∉ entries.map Prod.fst) (value : ν) :
    ((insertSorted key value entries).map Prod.fst).Perm (key :: entries.map Prod.fst) := by
  induction entries with
  | nil => rfl
  | cons entry rest ih =>
    obtain ⟨other, fresh⟩ := not_or.mp (List.mem_cons.not.mp fresh)
    unfold insertSorted
    split
    · rfl
    · exact ((ih fresh).cons _).trans (.swap ..)

theorem keys_insertAll {entries map : List (κ × ν)}
    (distinct : (entries.map Prod.fst ++ map.map Prod.fst).Nodup) :
    ((insertAll entries map).map Prod.fst).Perm (entries.map Prod.fst ++ map.map Prod.fst) := by
  induction entries generalizing map with
  | nil => rfl
  | cons entry rest ih =>
    have fresh : entry.1 ∉ map.map Prod.fst := fun member =>
      (List.nodup_cons.mp distinct).1 (List.mem_append_right _ member)
    have moved : (rest.map Prod.fst ++ (insertSorted entry.1 entry.2 map).map Prod.fst).Perm
        ((entry :: rest).map Prod.fst ++ map.map Prod.fst) :=
      ((keys_insertSorted fresh entry.2).append_left _).trans List.perm_middle
    exact (ih (moved.nodup_iff.mpr distinct)).trans moved

theorem length_insertSorted_le (key : κ) (value : ν) (entries : List (κ × ν)) :
    (insertSorted key value entries).length ≤ entries.length + 1 := by
  induction entries with
  | nil => simp [insertSorted]
  | cons entry rest ih =>
    unfold insertSorted
    split
    · simp
    · split
      · simp
      · simp only [List.length_cons]
        omega

theorem mem_insertSorted_self (key : κ) (value : ν) (entries : List (κ × ν)) :
    (key, value) ∈ insertSorted key value entries := by
  induction entries with
  | nil => simp [insertSorted]
  | cons entry rest ih =>
    unfold insertSorted
    split
    · simp
    · split
      · simp
      · exact List.mem_cons_of_mem _ ih

theorem mem_of_insertAll {entries map : List (κ × ν)} {entry : κ × ν}
    (member : entry ∈ insertAll entries map) : entry ∈ entries ∨ entry ∈ map := by
  induction entries generalizing map with
  | nil => exact .inr member
  | cons first rest ih =>
    rcases ih member with later | written
    · exact .inl (List.mem_cons_of_mem _ later)
    · rcases mem_of_insertSorted written with rfl | old
      · exact .inl List.mem_cons_self
      · exact .inr old

/-- The sum of a measure over the entries. -/
def total (weight : κ × ν → Nat) (entries : List (κ × ν)) : Nat := (entries.map weight).sum

/-- A write adds its entry, or puts it in the place of an old one with its key. -/
theorem total_insertSorted (weight : κ × ν → Nat) (key : κ) (value : ν) (entries : List (κ × ν)) :
    total weight (insertSorted key value entries) = total weight entries + weight (key, value) ∨
      ∃ old, (key, old) ∈ entries ∧ total weight (insertSorted key value entries) +
        weight (key, old) = total weight entries + weight (key, value) := by
  induction entries with
  | nil => simp [insertSorted, total]
  | cons entry rest ih =>
    obtain ⟨k, v⟩ := entry
    unfold insertSorted
    split
    · left
      simp only [total, List.map_cons, List.sum_cons]
      omega
    · split
      · rename_i same
        subst same
        right
        refine ⟨v, List.mem_cons_self, ?_⟩
        simp only [total, List.map_cons, List.sum_cons]
        omega
      · simp only [total, List.map_cons, List.sum_cons] at ih ⊢
        rcases ih with added | ⟨old, member, replaced⟩
        · left
          omega
        · right
          exact ⟨old, List.mem_cons_of_mem _ member, by omega⟩

/-- A write loses no entry but the one whose place it takes. -/
theorem mem_insertSorted (weight : κ × ν → Nat) (key : κ) (value : ν)
    {entries : List (κ × ν)} {entry : κ × ν} (member : entry ∈ entries) :
    entry ∈ insertSorted key value entries ∨ entry.1 = key ∧
      total weight (insertSorted key value entries) + weight entry =
        total weight entries + weight (key, value) := by
  induction entries with
  | nil => cases member
  | cons first rest ih =>
    obtain ⟨k, v⟩ := first
    unfold insertSorted
    split
    · exact .inl (List.mem_cons_of_mem _ member)
    · split
      · rename_i same
        subst same
        rcases List.mem_cons.mp member with rfl | old
        · right
          refine ⟨rfl, ?_⟩
          simp only [total, List.map_cons, List.sum_cons]
          omega
        · exact .inl (List.mem_cons_of_mem _ old)
      · rcases List.mem_cons.mp member with rfl | old
        · exact .inl List.mem_cons_self
        · rcases ih old with kept | ⟨same, replaced⟩
          · exact .inl (List.mem_cons_of_mem _ kept)
          · right
            refine ⟨same, ?_⟩
            simp only [total, List.map_cons, List.sum_cons] at replaced ⊢
            omega

end

section
variable {α κ : Type} [LT κ] {key : α → κ} {p : α → Bool} {entries : List α}

/-- What is found first is below all that passes. -/
theorem find?_below (sorted : entries.Pairwise fun a b => key a < key b) {a : α}
    (found : entries.find? p = some a) {b : α} (member : b ∈ entries) (passes : p b = true) :
    b = a ∨ key a < key b := by
  obtain ⟨_, before, behind, rfl, refused⟩ := List.find?_eq_some_iff_append.mp found
  rcases List.mem_append.mp member with early | late
  · have refusal := refused b early
    rw [passes] at refusal
    cases refusal
  · rcases List.mem_cons.mp late with same | later
    · exact .inl same
    · exact .inr ((List.pairwise_cons.mp (List.pairwise_append.mp sorted).2.1).1 b later)

/-- The first entry that passes is the one whose key is below the others that do. -/
theorem find?_ordered (asymm : ∀ a b : κ, a < b → ¬ b < a)
    (sorted : entries.Pairwise fun a b => key a < key b) {a : α} (member : a ∈ entries)
    (passes : p a = true) :
    entries.find? p = some a ↔
      ∀ b ∈ entries, p b = true → key b ≠ key a → key a < key b := by
  constructor
  · intro found b inside passes' other
    exact (find?_below sorted found inside passes').resolve_left fun same => other (same ▸ rfl)
  · intro lowest
    obtain ⟨c, found⟩ := Option.isSome_iff_exists.mp
      (List.find?_isSome.mpr ⟨a, member, passes⟩)
    rcases find?_below sorted found member passes with rfl | below
    · exact found
    · have other : key c ≠ key a := fun same => asymm _ _ below (same ▸ same ▸ below)
      exact absurd (lowest c (List.mem_of_find?_eq_some found) (List.find?_some found) other)
        (asymm _ _ below)

end

end CppMcp.Lib
