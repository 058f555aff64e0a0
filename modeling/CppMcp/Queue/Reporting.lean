import CppMcp.Queue.SingleWriter

namespace CppMcp

open Lib

namespace AsyncWriteQueue

variable {config : WriteQueueConfig}

/-- The calls of `on_error_` that were decided: made, or due. -/
def decided (q : AsyncWriteQueue) : Nat := q.errors + q.reporting

/-- The steps that make a call of `on_error_` due on an active queue. -/
def Fails (config : WriteQueueConfig) (q : AsyncWriteQueue) : WriteQueueEvent → Prop
  | .enqueue data => config.policy = .closeOnError ∧ q.overflows config data = true
  | .completes _ ok => ok = false
  | _ => False

theorem enqueue_decided {q next : AsyncWriteQueue} {item : QueueItem} {ok : Bool}
    (h : q.enqueue config item = (next, ok)) :
    (next.decided = q.decided ∧ (q.active = false → next.active = false)) ∨
    (q.active = true ∧ next.active = false ∧ config.policy = .closeOnError ∧
      q.overflows config item.data = true) := by
  rcases enqueue_cases config q item with same | ⟨active, overflows, policy, closes⟩ |
    ⟨active, accepts⟩
  · cases same.symm.trans h
    exact .inl ⟨rfl, id⟩
  · cases closes.symm.trans h
    exact .inr ⟨active, by rw [report_eq], policy, overflows⟩
  · cases accepts.symm.trans h
    exact .inl ⟨rfl, id⟩

theorem armWrite_decided (q : AsyncWriteQueue) :
    q.armWrite.decided = q.decided ∧ q.armWrite.active = q.active := by
  rcases armWrite_cases q with ⟨stops, -⟩ | ⟨item, rest, -, -, takes⟩
  · rw [stops]
    exact ⟨rfl, rfl⟩
  · rw [takes]
    exact ⟨rfl, rfl⟩

/-- The end of a write decides nothing, or closes an active queue because it failed. -/
theorem onWriteComplete_decided (q : AsyncWriteQueue) (ok : Bool) :
    ((q.onWriteComplete config ok).decided = q.decided ∧
      (q.active = false → (q.onWriteComplete config ok).active = false)) ∨
    (q.active = true ∧ (q.onWriteComplete config ok).active = false ∧ ok = false) := by
  unfold onWriteComplete
  cases ok with
  | true =>
    refine .inl ?_
    cases q.active && !q.queue.isEmpty <;> exact ⟨rfl, id⟩
  | false =>
    cases active : q.active with
    | false => exact .inl ⟨rfl, fun _ => rfl⟩
    | true =>
      refine .inr ⟨rfl, ?_, rfl⟩
      simp [report_eq]

/-- A step decides nothing and leaves an inactive queue so, or it fails and closes the queue. -/
theorem step_decides {q q' : AsyncWriteQueue} {event : WriteQueueEvent}
    (h : step config q event = some q') :
    (q'.decided = q.decided ∧ (q.active = false → q'.active = false)) ∨
    (q.active = true ∧ q'.active = false ∧ q.Fails config event) := by
  cases event with
  | enqueue data =>
    cases h
    have entered : q.enqueue config ⟨q.returned.length, data⟩ = (_, _) := rfl
    exact enqueue_decided entered
  | arms =>
    simp only [step, Option.ite_none_right_eq_some, Option.some.injEq] at h
    obtain ⟨-, rfl⟩ := h
    obtain ⟨same, active⟩ := armWrite_decided { q with arming := q.arming - 1 }
    exact .inl ⟨same, active.trans⟩
  | hands place =>
    simp only [step] at h
    split at h
    · cases h
      exact .inl ⟨rfl, id⟩
    · cases h
  | completes place ok =>
    simp only [step, Option.ite_none_right_eq_some, Option.some.injEq] at h
    obtain ⟨-, rfl⟩ := h
    exact onWriteComplete_decided { q with inFlight := q.inFlight.eraseIdx place } ok
  | reports =>
    simp only [step, Option.ite_none_right_eq_some, Option.some.injEq] at h
    obtain ⟨due, rfl⟩ := h
    refine .inl ⟨?_, id⟩
    show q.errors + 1 + (q.reporting - 1) = q.errors + q.reporting
    omega
  | shutdown =>
    cases h
    exact .inl ⟨rfl, fun _ => rfl⟩

theorem inactive_decides_nothing {q q' : AsyncWriteQueue} {events : List WriteQueueEvent}
    (down : q.active = false) (h : run (step config) q events = some q') :
    q'.active = false ∧ q'.decided = q.decided := by
  have keeps : ∀ now event next, (now.active = false ∧ now.decided = q.decided) →
      step config now event = some next → next.active = false ∧ next.decided = q.decided := by
    rintro now event next ⟨down, same⟩ stepped
    rcases step_decides stepped with ⟨kept, stays⟩ | ⟨up, -⟩
    · exact ⟨stays down, kept.trans same⟩
    · cases down.symm.trans up
  exact run_keeps keeps ⟨down, rfl⟩ h

theorem shutdown_deactivates {events : List WriteQueueEvent} {q q' : AsyncWriteQueue}
    (h : run (step config) q events = some q') (stops : .shutdown ∈ events) :
    q'.active = false := by
  obtain ⟨front, back, rfl⟩ := List.append_of_mem stops
  rw [run_append] at h
  obtain ⟨before, -, h⟩ := Option.bind_eq_some_iff.mp h
  obtain ⟨next, stepped, h⟩ := run_cons_eq h
  cases stepped
  exact (inactive_decides_nothing rfl h).1

/-- An active queue that holds an item has exactly one writer. `on_error_` is called at most
    once, a call is decided only by a step that closes the queue over an overflow or a failed
    write, and none is decided once `shutdown` has run. -/
theorem failure_reported_once {events : List WriteQueueEvent} {q : AsyncWriteQueue}
    (h : run (step config) {} events = some q) :
    (q.active = true → q.queue ≠ [] → q.busy = 1) ∧ q.errors ≤ q.decided ∧ q.decided ≤ 1 ∧
    (∀ event q', step config q event = some q' → q'.decided ≠ q.decided →
      q.active = true ∧ q'.active = false ∧ q.Fails config event) ∧
    (.shutdown ∈ events → ∀ later q', run (step config) q later = some q' →
      q'.decided = q.decided) := by
  have inv := run_sound h
  refine ⟨fun active waiting => ?_, Nat.le_add_right _ _, inv.reported,
    fun event q' stepped changed => ?_, fun stops later q' ran => ?_⟩
  · rw [inv.gate active]
    cases writing : q.writing with
    | true => rfl
    | false => exact absurd (inv.wake active writing) waiting
  · rcases step_decides stepped with ⟨same, -⟩ | closes
    · exact absurd same changed
    · exact closes
  · exact (inactive_decides_nothing (shutdown_deactivates h stops) ran).2

def boundedQueue : WriteQueueConfig := { maxQueuedBytes := 1, policy := .closeOnError }

def overflowThenShutdown : List WriteQueueEvent := [.enqueue [104, 105], .shutdown]

theorem overflow_reported_once : ∃ q,
    run (step boundedQueue) {} overflowThenShutdown = some q ∧ q.decided = 1 ∧
      ∀ later q', run (step boundedQueue) q later = some q' → q'.decided = 1 := by
  obtain ⟨q, ran⟩ : ∃ q, run (step boundedQueue) {} overflowThenShutdown = some q := ⟨_, rfl⟩
  obtain ⟨-, -, -, -, after⟩ := failure_reported_once ran
  have decided : (run (step boundedQueue) {} overflowThenShutdown).map decided = some 1 := by
    decide
  rw [ran] at decided
  have once : q.decided = 1 := Option.some.inj decided
  exact ⟨q, ran, once, fun later q' more => (after (by decide) later q' more).trans once⟩

/-- `on_error_` is called outside the lock: a `shutdown` may run between the critical section
    that closes the queue and the call. -/
theorem error_called_after_shutdown :
    ¬ ∀ (config : WriteQueueConfig) (events : List WriteQueueEvent) (q q' : AsyncWriteQueue)
      (event : WriteQueueEvent), run (step config) {} events = some q → .shutdown ∈ events →
      step config q event = some q' → q'.errors = q.errors := by
  intro silent
  have same := silent boundedQueue overflowThenShutdown _ _ .reports rfl (by decide) rfl
  revert same
  decide

end AsyncWriteQueue

end CppMcp
