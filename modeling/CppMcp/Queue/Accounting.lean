import CppMcp.Queue.SingleWriter

namespace CppMcp

open Lib

namespace AsyncWriteQueue

variable {config : WriteQueueConfig}

/-- The bytes of the items that wait. -/
def waitingBytes (q : AsyncWriteQueue) : Nat := (q.queue.map fun item => item.data.length).sum

/-- A bounded queue is within its bound. -/
def Bounded (config : WriteQueueConfig) (q : AsyncWriteQueue) : Prop :=
  0 < config.maxQueuedBytes → q.queuedBytes ≤ config.maxQueuedBytes

theorem overflows_iff (q : AsyncWriteQueue) (data : Bytes) : q.overflows config data = true ↔
    0 < config.maxQueuedBytes ∧ config.maxQueuedBytes < q.queuedBytes + data.length := by
  simp [overflows]

/-- An active queue refuses an item exactly if the item overflows it. -/
theorem enqueue_refused_iff {q : AsyncWriteQueue} (active : q.active = true) (item : QueueItem) :
    (q.enqueue config item).2 = false ↔ q.overflows config item.data = true := by
  unfold enqueue
  simp only [active, Bool.not_true, Bool.false_eq_true, if_false]
  cases q.overflows config item.data with
  | true => cases config.policy <;> simp
  | false => simp

/-- What a refusal leaves behind: the queue as it was, or one that is closed. -/
theorem enqueue_refused {q : AsyncWriteQueue} {item : QueueItem} (active : q.active = true)
    (refused : (q.enqueue config item).2 = false) :
    (config.policy = .dropNewest → (q.enqueue config item).1 = q) ∧
    (config.policy = .closeOnError → (q.enqueue config item).1.active = false) := by
  have overflow := (enqueue_refused_iff active item).mp refused
  unfold enqueue
  simp only [active, Bool.not_true, Bool.false_eq_true, if_false, overflow, if_true]
  cases config.policy with
  | dropNewest => exact ⟨fun _ => rfl, nofun⟩
  | closeOnError => exact ⟨nofun, fun _ => by rw [report_eq]⟩

theorem enqueue_bounded {q : AsyncWriteQueue} (bounded : q.Bounded config) (item : QueueItem) :
    (q.enqueue config item).1.Bounded config := by
  intro limited
  rcases enqueue_cases config q item with same | ⟨-, -, -, closes⟩ | ⟨active, accepts⟩
  · rw [same]
    exact bounded limited
  · rw [closes, report_eq]
    exact bounded limited
  · have fits : ¬ q.overflows config item.data = true := by
      rw [← enqueue_refused_iff active item, accepts]
      simp
    rw [overflows_iff] at fits
    rw [accepts]
    show q.queuedBytes + item.data.length ≤ config.maxQueuedBytes
    omega

/-- No step but an accepted `enqueue` adds to the count. -/
theorem step_bounded (q : AsyncWriteQueue) (event : WriteQueueEvent) (q' : AsyncWriteQueue)
    (bounded : q.Bounded config) (h : step config q event = some q') : q'.Bounded config := by
  have less {next : AsyncWriteQueue} (fewer : next.queuedBytes ≤ q.queuedBytes) :
      next.Bounded config := fun limited => fewer.trans (bounded limited)
  cases event with
  | enqueue data =>
    cases h
    exact enqueue_bounded bounded ⟨q.returned.length, data⟩
  | arms =>
    simp only [step, Option.ite_none_right_eq_some, Option.some.injEq] at h
    obtain ⟨-, rfl⟩ := h
    apply less
    rcases armWrite_cases { q with arming := q.arming - 1 } with ⟨stops, -⟩ | ⟨item, rest, -, -, takes⟩
    · rw [stops]
    · rw [takes]
      exact Nat.sub_le _ _
  | hands place =>
    simp only [step] at h
    split at h
    · cases h
      exact less le_rfl
    · cases h
  | completes place ok =>
    simp only [step, Option.ite_none_right_eq_some, Option.some.injEq] at h
    obtain ⟨-, rfl⟩ := h
    apply less
    simp only [onWriteComplete, report_eq]
    repeat' split
    all_goals exact le_rfl
  | reports =>
    simp only [step, Option.ite_none_right_eq_some, Option.some.injEq] at h
    obtain ⟨-, rfl⟩ := h
    exact less le_rfl
  | shutdown =>
    cases h
    exact less (Nat.zero_le _)

theorem run_bounded {events : List WriteQueueEvent} {q : AsyncWriteQueue}
    (h : run (step config) {} events = some q) : q.Bounded config :=
  run_keeps step_bounded (fun _ => Nat.zero_le _) h

/-- Between any two critical sections `queued_bytes_` is what the queue holds, the subtraction of
    `arm_write` does not underflow, a bound is kept, and an active queue refuses exactly what its
    bound has no room for: as if nothing had come, or for good. -/
theorem backpressure_exact {events : List WriteQueueEvent} {q : AsyncWriteQueue}
    (h : run (step config) {} events = some q) :
    q.queuedBytes = q.waitingBytes ∧
    (∀ item ∈ q.queue.head?, item.data.length ≤ q.queuedBytes) ∧
    (0 < config.maxQueuedBytes → q.queuedBytes ≤ config.maxQueuedBytes) ∧
    (q.active = true → ∀ item,
      ((q.enqueue config item).2 = false ↔ 0 < config.maxQueuedBytes ∧
        config.maxQueuedBytes < q.queuedBytes + item.data.length) ∧
      ((q.enqueue config item).2 = false →
        (config.policy = .dropNewest → (q.enqueue config item).1 = q) ∧
        (config.policy = .closeOnError → (q.enqueue config item).1.active = false))) := by
  have bytes := (run_sound h).bytes
  refine ⟨bytes, fun item first => ?_, run_bounded h, fun active item => ?_⟩
  · obtain ⟨rest, queue⟩ := List.head?_eq_some_iff.mp first
    rw [bytes, queue, List.map_cons, List.sum_cons]
    exact Nat.le_add_right _ _
  · exact ⟨(enqueue_refused_iff active item).trans (overflows_iff q item.data),
      enqueue_refused active⟩

def threeBytes : WriteQueueConfig := { maxQueuedBytes := 3 }

def fillsUp : List WriteQueueEvent := [.enqueue [104, 105], .arms, .enqueue [104, 105]]

/-- Two of its three bytes are taken, and two more are dropped. -/
theorem full_queue_drops : ∃ q, run (step threeBytes) {} fillsUp = some q ∧
    q.queuedBytes = q.waitingBytes ∧ (q.enqueue threeBytes ⟨2, [121, 111]⟩).1 = q := by
  obtain ⟨q, ran⟩ : ∃ q, run (step threeBytes) {} fillsUp = some q := ⟨_, rfl⟩
  obtain ⟨bytes, -, -, refusals⟩ := backpressure_exact ran
  have full : (run (step threeBytes) {} fillsUp).map (fun q => (q.active, q.queuedBytes)) =
      some (true, 2) := by decide
  rw [ran] at full
  simp only [Option.map_some, Option.some.injEq, Prod.mk.injEq] at full
  obtain ⟨refused, left⟩ := refusals full.1 ⟨2, [121, 111]⟩
  have isOver := refused.mpr (by rw [full.2]; decide)
  exact ⟨q, ran, bytes, (left isOver).1 rfl⟩

end AsyncWriteQueue

end CppMcp
