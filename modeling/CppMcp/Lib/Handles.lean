import Mathlib.Data.List.Count
import Mathlib.Tactic.Common

namespace CppMcp.Lib

/-- Handles that a system gives out under fresh numbers, what each open one refers to, and every
    release in order. -/
structure Handles (α : Type) where
  next : Nat := 0
  refers : Nat → Option α := fun _ => none
  releases : List Nat := []

namespace Handles

variable {α : Type}

/-- The new handle is `next`. -/
def acquire (h : Handles α) (a : α) : Handles α :=
  { h with next := h.next + 1, refers := fun n => if n = h.next then some a else h.refers n }

def release (h : Handles α) (handle : Nat) : Handles α :=
  { h with
    refers := fun n => if n = handle then none else h.refers n
    releases := h.releases ++ [handle] }

def releaseAll (h : Handles α) (handles : List Nat) : Handles α := handles.foldl release h

/-- How often a handle is open. -/
def live (h : Handles α) (n : Nat) : Nat := if (h.refers n).isSome then 1 else 0

@[simp] theorem next_acquire (h : Handles α) (a : α) : (h.acquire a).next = h.next + 1 := rfl

@[simp] theorem next_release (h : Handles α) (m : Nat) : (h.release m).next = h.next := rfl

@[simp] theorem releases_acquire (h : Handles α) (a : α) : (h.acquire a).releases = h.releases := rfl

theorem refers_acquire (h : Handles α) (a : α) (n : Nat) :
    (h.acquire a).refers n = if n = h.next then some a else h.refers n := rfl

theorem refers_release (h : Handles α) (m n : Nat) :
    (h.release m).refers n = if n = m then none else h.refers n := rfl

theorem live_acquire (h : Handles α) (a : α) (n : Nat) :
    (h.acquire a).live n = if n = h.next then 1 else h.live n := by
  unfold live
  rw [refers_acquire]
  by_cases same : n = h.next <;> simp [same]

theorem live_release (h : Handles α) (m n : Nat) :
    (h.release m).live n = if n = m then 0 else h.live n := by
  unfold live
  rw [refers_release]
  by_cases same : n = m <;> simp [same]

theorem refers_releaseAll (h : Handles α) (handles : List Nat) (n : Nat) :
    (h.releaseAll handles).refers n = if n ∈ handles then none else h.refers n := by
  induction handles generalizing h with
  | nil => simp [releaseAll]
  | cons m handles ih =>
    show ((h.release m).releaseAll handles).refers n = _
    rw [ih, refers_release]
    by_cases same : n = m <;> simp [same]

/-- Every handle given out is open or was released once, and those held are open and held once. -/
structure Kept (h : Handles α) (held : List Nat) : Prop where
  ledger : ∀ n, h.releases.count n + h.live n = if n < h.next then 1 else 0
  owned : ∀ n, held.count n ≤ h.live n

/-- Every open handle is held: none has leaked. -/
def Covered (h : Handles α) (held : List Nat) : Prop := ∀ n, h.live n ≤ held.count n

theorem kept_initial : Kept ({} : Handles α) [] := by
  constructor <;> simp [live]

theorem covered_initial : Covered ({} : Handles α) [] := by
  simp [Covered, live]

theorem Kept.weaken {h : Handles α} {held held' : List Nat} (kept : h.Kept held)
    (fewer : ∀ n, held'.count n ≤ held.count n) : h.Kept held' :=
  ⟨kept.ledger, fun n => Nat.le_trans (fewer n) (kept.owned n)⟩

theorem Kept.fresh {h : Handles α} {held : List Nat} (kept : h.Kept held) :
    h.live h.next = 0 ∧ held.count h.next = 0 := by
  have ledger := kept.ledger h.next
  have owned := kept.owned h.next
  rw [if_neg (Nat.lt_irrefl _)] at ledger
  omega

theorem Kept.acquire {h : Handles α} {held : List Nat} (kept : h.Kept held) (a : α) :
    (h.acquire a).Kept (h.next :: held) := by
  obtain ⟨closed, unheld⟩ := kept.fresh
  constructor
  · intro n
    have ledger := kept.ledger n
    rw [live_acquire, releases_acquire, next_acquire]
    split at ledger <;> split <;> split <;> omega
  · intro n
    have owned := kept.owned n
    rw [live_acquire, List.count_cons]
    by_cases same : n = h.next
    · subst same
      simp [unheld]
    · simpa [same, Ne.symm same] using owned

theorem Kept.covered_acquire {h : Handles α} {held : List Nat} (kept : h.Kept held) (a : α) :
    (h.acquire a).Covered (h.next :: held) ↔ h.Covered held := by
  obtain ⟨closed, unheld⟩ := kept.fresh
  apply forall_congr'
  intro n
  rw [live_acquire, List.count_cons]
  by_cases same : n = h.next
  · subst same
    simp [closed]
  · simp [same, Ne.symm same]

theorem Kept.release {h : Handles α} {held : List Nat} {m : Nat} (kept : h.Kept (m :: held)) :
    (h.release m).Kept held := by
  constructor
  · intro n
    have ledger := kept.ledger n
    have owned := kept.owned n
    rw [List.count_cons] at owned
    show (h.releases ++ [m]).count n + _ = _
    rw [live_release, next_release, List.count_append, List.count_singleton]
    by_cases same : n = m
    · subst same
      simp only [BEq.rfl, if_true] at owned ⊢
      split at ledger <;> split <;> omega
    · simpa [same, Ne.symm same] using ledger
  · intro n
    have owned := kept.owned n
    have once := kept.ledger n
    rw [List.count_cons] at owned
    rw [live_release]
    by_cases same : n = m
    · subst same
      simp only [BEq.rfl, if_true] at owned ⊢
      split at once <;> omega
    · simpa [same, Ne.symm same] using owned

theorem Kept.covered_release {h : Handles α} {held : List Nat} {m : Nat}
    (kept : h.Kept (m :: held)) : (h.release m).Covered held ↔ h.Covered (m :: held) := by
  apply forall_congr'
  intro n
  have owned := kept.owned n
  have once := kept.ledger n
  rw [live_release, List.count_cons]
  rw [List.count_cons] at owned
  by_cases same : n = m
  · subst same
    simp only [BEq.rfl, if_true] at owned ⊢
    split at once <;> omega
  · simp [same, Ne.symm same]

theorem Kept.releaseAll {h : Handles α} {gone held : List Nat} (kept : h.Kept (gone ++ held)) :
    (h.releaseAll gone).Kept held ∧
      ((h.releaseAll gone).Covered held ↔ h.Covered (gone ++ held)) := by
  induction gone generalizing h with
  | nil => exact ⟨kept, Iff.rfl⟩
  | cons m gone ih =>
    obtain ⟨later, covers⟩ := ih kept.release
    exact ⟨later, covers.trans kept.covered_release⟩

/-- Holding less than before without a release is a leak. -/
theorem Kept.leaks {h : Handles α} {held held' : List Nat} (kept : h.Kept held) {n : Nat}
    (less : held'.count n < held.count n) : ¬ h.Covered held' := by
  intro covered
  have owned := kept.owned n
  have covered := covered n
  omega

theorem covered_congr {h : Handles α} {held held' : List Nat}
    (same : ∀ n, held'.count n = held.count n) : h.Covered held' ↔ h.Covered held := by
  apply forall_congr'
  intro n
  rw [same]

/-- With nothing held any more, every handle was released exactly once if none has leaked. -/
theorem Kept.released_iff {h : Handles α} (kept : h.Kept []) :
    (∀ n < h.next, h.releases.count n = 1) ↔ h.Covered [] := by
  constructor
  · intro released n
    have ledger := kept.ledger n
    split at ledger
    · have once := released n ‹_›
      simp only [List.count_nil]
      omega
    · omega
  · intro covered n below
    have ledger := kept.ledger n
    have closed := covered n
    rw [if_pos below] at ledger
    simp only [List.count_nil] at closed
    omega

end Handles

end CppMcp.Lib
