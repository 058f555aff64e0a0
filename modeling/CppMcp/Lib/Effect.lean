import Mathlib.Tactic.Common

namespace CppMcp.Lib

section Fallible
variable {ε α β : Type}

theorem bind_eq_ok {x : Except ε α} {f : α → Except ε β} {b : β} :
    x >>= f = .ok b ↔ ∃ a, x = .ok a ∧ f a = .ok b := by
  cases x with
  | error e => simp [Bind.bind, Except.bind]
  | ok a => simp [Bind.bind, Except.bind]

theorem map_eq_ok {x : Except ε α} {f : α → β} {b : β} :
    x.map f = .ok b ↔ ∃ a, x = .ok a ∧ f a = b := by
  cases x with
  | error e => simp [Except.map]
  | ok a => simp [Except.map]

/-- A sequence returns exactly when its head returns and its tail does on that value. -/
theorem bind_returns_iff {x : Except ε α} {f : α → Except ε β} {tail : Prop}
    (const : ∀ a, x = .ok a → ((∃ b, f a = .ok b) ↔ tail)) :
    (∃ b, x >>= f = .ok b) ↔ (∃ a, x = .ok a) ∧ tail := by
  simp only [bind_eq_ok]
  constructor
  · rintro ⟨b, a, head, rest⟩
    exact ⟨⟨a, head⟩, (const a head).mp ⟨b, rest⟩⟩
  · rintro ⟨⟨a, head⟩, holds⟩
    obtain ⟨b, rest⟩ := (const a head).mpr holds
    exact ⟨b, a, head, rest⟩

end Fallible

/-- A computation with state that may throw and keeps the writes it made before. -/
abbrev Action (ε σ α : Type) := ExceptT ε (StateM σ) α

/-- Every run moves the state along `R`, and what it returns satisfies `Q`. -/
def Yields {ε σ α : Type} (R : σ → σ → Prop) (Q : α → Prop) (m : Action ε σ α) : Prop :=
  ∀ s, R s (m.run.run s).2 ∧ ∀ a, (m.run.run s).1 = .ok a → Q a

section Stateful
variable {ε σ α β : Type} {R : σ → σ → Prop} {P : α → Prop} {Q : β → Prop}

theorem yields_pure (refl : ∀ s, R s s) {a : α} (holds : P a) :
    Yields R P (pure a : Action ε σ α) := by
  intro s
  refine ⟨refl s, fun b h => ?_⟩
  cases h
  exact holds

theorem yields_bind {m : Action ε σ α} {f : α → Action ε σ β} (first : Yields R P m)
    (trans : ∀ a b c, R a b → R b c → R a c) (next : ∀ a, P a → Yields R Q (f a)) :
    Yields R Q (m >>= f) := by
  intro s
  obtain ⟨moved, holds⟩ := first s
  simp only [ExceptT.run_bind, StateT.run_bind]
  cases result : m.run.run s with
  | mk outcome after =>
    rw [result] at moved holds
    cases outcome with
    | error e => exact ⟨moved, fun b h => by cases h⟩
    | ok a =>
      obtain ⟨moved', holds'⟩ := next a (holds a rfl) after
      exact ⟨trans _ _ _ moved moved', holds'⟩

theorem yields_ite {c : Prop} [Decidable c] {yes no : Action ε σ α}
    (holds : Yields R P yes) (fails : Yields R P no) : Yields R P (if c then yes else no) := by
  split
  · exact holds
  · exact fails

theorem yields_get (refl : ∀ s, R s s) : Yields R (fun _ => True) (get : Action ε σ σ) := by
  intro s
  exact ⟨refl s, fun _ _ => True.intro⟩

theorem run_get_bind (f : σ → Action ε σ α) (s : σ) :
    (get >>= f : Action ε σ α).run.run s = (f s).run.run s := rfl

theorem run_bind_ok {m : Action ε σ α} {f : α → Action ε σ β} {s s' : σ} {a : α}
    (ran : m.run.run s = (.ok a, s')) : (m >>= f).run.run s = (f a).run.run s' := by
  simp only [ExceptT.run_bind, StateT.run_bind, ran]
  rfl

theorem yields_modify {f : σ → σ} (moves : ∀ s, R s (f s)) :
    Yields R (fun _ => True) (modify f : Action ε σ Unit) := by
  intro s
  exact ⟨moves s, fun _ _ => True.intro⟩

/-- A computation does the same on a state and on its image, and ends in the image. -/
def Commutes (f : σ → σ) (m : Action ε σ α) : Prop :=
  ∀ s, m.run.run (f s) = ((m.run.run s).1, f (m.run.run s).2)

theorem commutes_pure (f : σ → σ) (a : α) : Commutes f (pure a : Action ε σ α) := fun _ => rfl

theorem commutes_bind {f : σ → σ} {m : Action ε σ α} {k : α → Action ε σ β} (first : Commutes f m)
    (next : ∀ a, Commutes f (k a)) : Commutes f (m >>= k) := by
  intro s
  simp only [ExceptT.run_bind, StateT.run_bind, first s]
  cases m.run.run s with
  | mk outcome after =>
    cases outcome with
    | error e => rfl
    | ok a => exact next a after

/-- What is read of the state may not depend on the part that the image leaves out. -/
theorem commutes_get {f : σ → σ} {k : σ → Action ε σ α} (same : ∀ s, k (f s) = k s)
    (next : ∀ s, Commutes f (k s)) : Commutes f (get >>= k) := by
  intro s
  simp only [run_get_bind, same, next s s]

theorem commutes_modify {f g : σ → σ} (same : ∀ s, g (f s) = f (g s)) :
    Commutes f (modify g : Action ε σ Unit) := by
  intro s
  exact congrArg (Prod.mk (Except.ok ())) (same s)

theorem commutes_ite {f : σ → σ} {c : Prop} [Decidable c] {yes no : Action ε σ α}
    (holds : Commutes f yes) (fails : Commutes f no) : Commutes f (if c then yes else no) := by
  split
  · exact holds
  · exact fails

/-- A computation has the same outcome in two states. -/
def Agrees (s t : σ) (m : Action ε σ α) : Prop := (m.run.run s).1 = (m.run.run t).1

theorem Commutes.agrees {f : σ → σ} {m : Action ε σ α} (commutes : Commutes f m) (s : σ) :
    Agrees s (f s) m := by
  unfold Agrees
  rw [commutes s]

theorem agrees_ite {s t : σ} {c : Prop} [Decidable c] {yes no : Action ε σ α}
    (holds : Agrees s t yes) (fails : Agrees s t no) : Agrees s t (if c then yes else no) := by
  split
  · exact holds
  · exact fails

end Stateful

end CppMcp.Lib
