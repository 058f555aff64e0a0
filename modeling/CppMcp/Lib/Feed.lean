import Mathlib.Tactic.Common

namespace CppMcp.Lib

section
variable {σ α : Type} (step : σ → α → σ) (stopped : σ → Bool)

/-- Take the tokens chunk by chunk, until the machine has stopped when a chunk ends. -/
def feed (s : σ) : List (List α) → σ
  | [] => s
  | chunk :: rest => if stopped s then s else feed (chunk.foldl step s) rest

/-- Feeding takes the chunks up to the first end at which the machine has stopped. -/
theorem feed_take (s : σ) (chunks : List (List α)) : ∃ n,
    feed step stopped s chunks = (chunks.take n).flatten.foldl step s ∧
    (n = chunks.length ∨ stopped ((chunks.take n).flatten.foldl step s) = true) ∧
    ∀ k < n, stopped ((chunks.take k).flatten.foldl step s) = false := by
  induction chunks generalizing s with
  | nil => exact ⟨0, rfl, .inl rfl, by simp⟩
  | cons chunk rest ih =>
    cases halted : stopped s with
    | true => exact ⟨0, by simp [feed, halted], .inr (by simpa using halted), by simp⟩
    | false =>
      obtain ⟨n, fed, ends, running⟩ := ih (chunk.foldl step s)
      have unfolded (k : Nat) : ((chunk :: rest).take (k + 1)).flatten.foldl step s =
          (rest.take k).flatten.foldl step (chunk.foldl step s) := by simp
      refine ⟨n + 1, by rw [unfolded, ← fed]; simp [feed, halted], ?_, ?_⟩
      · rw [unfolded]
        exact ends.imp (by simp +contextual) id
      · intro k below
        cases k with
        | zero => simpa using halted
        | succ k =>
          rw [unfolded]
          exact running k (by omega)

/-- An invariant that every step keeps holds after every feeding. -/
theorem feed_keeps {Inv : σ → Prop} (keeps : ∀ s a, Inv s → Inv (step s a)) {s : σ}
    (start : Inv s) (chunks : List (List α)) : Inv (feed step stopped s chunks) := by
  induction chunks generalizing s with
  | nil => exact start
  | cons chunk rest ih =>
    unfold feed
    split
    · exact start
    · apply ih
      exact List.foldlRecOn chunk step start fun s kept a _ => keeps s a kept

end

/-- A part of a state that may be read and replaced. -/
structure Part (π β : Type) where
  get : π → β
  set : β → π → π
  get_set : ∀ b p, get (set b p) = b
  set_get : ∀ p, set (get p) p = p
  set_set : ∀ a b p, set a (set b p) = set a p

section
variable {π β α : Type} (part : Part π β)

/-- Change the part alone, if the change goes through. -/
def Part.lift (f : β → Option β) (p : π) : Option π := (f (part.get p)).map fun b => part.set b p

theorem Part.lift_bind (f g : β → Option β) (p : π) :
    (part.lift f p).bind (part.lift g) = part.lift (fun b => (f b).bind g) p := by
  cases changed : f (part.get p) with
  | none => simp [Part.lift, changed]
  | some b => simp [Part.lift, changed, part.get_set, part.set_set]

theorem Part.foldlM_lift (f : β → α → Option β) (l : List α) (p : π) :
    l.foldlM (fun p a => part.lift (fun b => f b a) p) p =
      part.lift (fun b => l.foldlM f b) p := by
  induction l generalizing p with
  | nil => simp [Part.lift, part.set_get]
  | cons a l ih =>
    have first : part.lift (fun b => f b a) p = (f (part.get p) a).map fun b => part.set b p := rfl
    rw [List.foldlM_cons, first]
    cases changed : f (part.get p) a with
    | none => simp [Part.lift, changed]
    | some b =>
      simp only [Option.map_some, Option.bind_eq_bind, Option.bind_some]
      rw [ih]
      simp [Part.lift, changed, part.get_set, part.set_set]

end

end CppMcp.Lib
